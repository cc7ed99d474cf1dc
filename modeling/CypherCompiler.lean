import CypherCompiler.Main
import CypherCompiler.Proofs.Authorization.Grouped
import CypherCompiler.Proofs.Collision.Compilation
import CypherCompiler.Proofs.Config.Overrides
import CypherCompiler.Proofs.Creation.Compared
import CypherCompiler.Proofs.Creation.Compilation
import CypherCompiler.Proofs.Creation.Edges
import CypherCompiler.Proofs.Filter.Equality
import CypherCompiler.Proofs.Filter.Lenient
import CypherCompiler.Proofs.Filter.Nesting
import CypherCompiler.Proofs.Filter.Typing
import CypherCompiler.Proofs.Handover.Compilation
import CypherCompiler.Proofs.Identity.Compilation
import CypherCompiler.Proofs.Lockstep.Compilation
import CypherCompiler.Proofs.Mirror.Compilation
import CypherCompiler.Proofs.Name.Claimed
import CypherCompiler.Proofs.Naming.Compilation
import CypherCompiler.Proofs.Naming.Ordering
import CypherCompiler.Proofs.Schema.Loading
import CypherCompiler.Proofs.Selection.Bindings
import CypherCompiler.Proofs.Selection.Window
import CypherCompiler.Proofs.Spelling.Compilation
import CypherCompiler.Proofs.Syntax.Resolution
import CypherCompiler.Proofs.Traversal.Apart
import CypherCompiler.Proofs.Traversal.Asked
import CypherCompiler.Proofs.Traversal.GroupPath
import CypherCompiler.Proofs.Traversal.Kept
import CypherCompiler.Proofs.Update.Compilation
