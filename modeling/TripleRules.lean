import TripleRules.Builtin.Standard
import TripleRules.Derivation.Tree
import TripleRules.Error.Reading
import TripleRules.Graph.Counters
import TripleRules.Settings.Source
import TripleRules.Term.Language
import TripleRules.Proofs.Store.History
import TripleRules.Proofs.Forward.Once
import TripleRules.Proofs.Forward.Termination
import TripleRules.Proofs.Tabling.Termination
import TripleRules.Proofs.Tabling.Variants
import TripleRules.Proofs.Graph.Direction
import TripleRules.Proofs.Graph.Abandoned
import TripleRules.Proofs.Graph.Ground
import TripleRules.Proofs.Graph.Explanation
import TripleRules.Proofs.Graph.Violations
import TripleRules.Proofs.Graph.Membership
import TripleRules.Proofs.Graph.Fitting
import TripleRules.Proofs.Rule.Specialized
import TripleRules.Proofs.Rule.Slots
import TripleRules.Proofs.Rule.Outcome
import TripleRules.Proofs.Derivation.Tree
import TripleRules.Proofs.Builtin.Quotient
