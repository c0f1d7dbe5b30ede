import Typings.Files.Tree
import Typings.Main
import Typings.Session
import Typings.Proofs.Arena.Agreement
import Typings.Proofs.Arena.Branches
import Typings.Proofs.Forest.Cycles
import Typings.Proofs.Forest.Order
import Typings.Proofs.Forest.Orphans
import Typings.Proofs.Declarations.Bodies
import Typings.Proofs.Declarations.Coverage
import Typings.Proofs.Declarations.Filtering
import Typings.Proofs.Declarations.Independence
import Typings.Proofs.Declarations.Merging
import Typings.Proofs.Declarations.Modules
import Typings.Proofs.Declarations.Namespaces
import Typings.Proofs.Declarations.Ambient
import Typings.Proofs.Declarations.NormalForm
import Typings.Proofs.Hint.Printing
import Typings.Proofs.Hint.Spans
import Typings.Proofs.Forest.Statics
import Typings.Proofs.Forest.Adjacency
import Typings.Proofs.Hint.Literals
import Typings.Proofs.TsType.Spelling
import Typings.Proofs.TsType.Telling
import Typings.Proofs.TsType.Unambiguity
import Typings.Proofs.Doclet.Params
import Typings.Proofs.Hint.ArgumentLists
import Typings.Proofs.Hint.Names
import Typings.Proofs.Doclet.Nullable
import Typings.Proofs.Doclet.Comments
import Typings.Proofs.Declarations.Bases
import Typings.Proofs.Hint.Faults
import Typings.Proofs.Hint.Templates
import Typings.Proofs.Hint.FieldColons
import Typings.Proofs.Hint.OpenStrings
import Typings.Proofs.TsType.Unions
import Typings.Proofs.Declarations.Lines
import Typings.Proofs.Forest.Sequence
