import SharpSource.Main
import SharpSource.Proofs.Alignment
import SharpSource.Proofs.Appending
import SharpSource.Proofs.AttributeBlocks
import SharpSource.Proofs.AttributeLiterals
import SharpSource.Proofs.Bakes
import SharpSource.Proofs.BaseLists
import SharpSource.Proofs.CacheKeys
import SharpSource.Proofs.DocComments
import SharpSource.Proofs.DuplicateLabels
import SharpSource.Proofs.Emission
import SharpSource.Proofs.Exports
import SharpSource.Proofs.Failures
import SharpSource.Proofs.GenericNames
import SharpSource.Proofs.GlobalNamespace
import SharpSource.Proofs.Identities
import SharpSource.Proofs.Independence
import SharpSource.Proofs.Levels
import SharpSource.Proofs.Lifetime
import SharpSource.Proofs.LineEnds
import SharpSource.Proofs.Markers
import SharpSource.Proofs.MemberAgreement
import SharpSource.Proofs.MemberAttributes
import SharpSource.Proofs.Names
import SharpSource.Proofs.NamespaceForms
import SharpSource.Proofs.Nesting
import SharpSource.Proofs.Nullability
import SharpSource.Proofs.Population
import SharpSource.Proofs.QuotedNames
import SharpSource.Proofs.References
import SharpSource.Proofs.Registrations
import SharpSource.Proofs.RememberedNames
import SharpSource.Proofs.RepeatedBases
import SharpSource.Proofs.Returns
import SharpSource.Proofs.RootedNames
import SharpSource.Proofs.Runs
import SharpSource.Proofs.Separation
import SharpSource.Proofs.Sharing
import SharpSource.Proofs.Shift
import SharpSource.Proofs.Silence
import SharpSource.Proofs.Suffixes
import SharpSource.Proofs.Tuples
import SharpSource.Proofs.UsingOrder
