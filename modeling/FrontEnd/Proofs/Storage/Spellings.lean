import FrontEnd.Proofs.Path.Table
import FrontEnd.Proofs.Storage.Walk

/-! Opening a file by the number of its path. The number stands for the first spelling of the path,
and the file system is asked for that one. -/

namespace FrontEnd

namespace FileSystem

variable {system : FileSystem} {left right : Path}

end FileSystem

namespace PathTable

variable {σ η : Type}

end PathTable

end FrontEnd
