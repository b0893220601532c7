import FrontEnd.Main
import FrontEnd.Tree.Order
import FrontEnd.Tree.Visitor
import FrontEnd.Proofs.Token.Layouts
import FrontEnd.Proofs.Token.Tiling
import FrontEnd.Proofs.Token.Protocol
import FrontEnd.Proofs.Source.Session
import FrontEnd.Proofs.Source.Visits
import FrontEnd.Proofs.Source.Padding
import FrontEnd.Proofs.Source.Decoding
import FrontEnd.Proofs.Token.Reception
import FrontEnd.Proofs.Token.Joining
import FrontEnd.Proofs.Storage.Contents
import FrontEnd.Proofs.Storage.FileSystem
import FrontEnd.Proofs.Command.Printing
import FrontEnd.Proofs.Source.Issues
import FrontEnd.Proofs.Token.Issues
import FrontEnd.Proofs.Path.Agreement
import FrontEnd.Proofs.Path.Table
import FrontEnd.Proofs.Storage.Agreement
import FrontEnd.Proofs.Storage.Binding
import FrontEnd.Proofs.Storage.Loading
import FrontEnd.Proofs.Token.Suffix
import FrontEnd.Proofs.Token.Respacing
import FrontEnd.Proofs.Source.Order
import FrontEnd.Proofs.Source.Slices
import FrontEnd.Proofs.Token.Order
import FrontEnd.Proofs.Token.Slices
import FrontEnd.Proofs.Command.Arguments
import FrontEnd.Proofs.Text.Plain
import FrontEnd.Proofs.Command.Listing
import FrontEnd.Proofs.Storage.Spellings
import FrontEnd.Proofs.Tree.Traversal
import FrontEnd.Proofs.Source.Counting
import FrontEnd.Proofs.Storage.Filling
import FrontEnd.Proofs.Token.Counting
