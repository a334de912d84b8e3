import TaggedUnion.Main
import TaggedUnion.Proofs.Conformance
import TaggedUnion.Proofs.RoundTrip
import TaggedUnion.Proofs.Evolution
import TaggedUnion.Proofs.FieldOrder
import TaggedUnion.Proofs.Construction
import TaggedUnion.Proofs.Document
import TaggedUnion.Proofs.Stream
import TaggedUnion.Proofs.StreamForms
import TaggedUnion.Proofs.Reports
import TaggedUnion.Proofs.Normalization
import TaggedUnion.Proofs.Respelling
import TaggedUnion.Proofs.Config
import TaggedUnion.Proofs.Capture
import TaggedUnion.Proofs.Checks
import TaggedUnion.Proofs.Transfer
import TaggedUnion.Proofs.Diagnosis
import TaggedUnion.Proofs.Leniency
import TaggedUnion.Proofs.Problems
import TaggedUnion.Proofs.RecordJson
import TaggedUnion.Proofs.Independence
import TaggedUnion.Proofs.Access
import TaggedUnion.Proofs.StreamContents
import TaggedUnion.Proofs.Rounding
import TaggedUnion.Proofs.IntegerLiterals
import TaggedUnion.Proofs.ScalarForms
