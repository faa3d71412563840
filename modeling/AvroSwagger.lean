import AvroSwagger.Main
import AvroSwagger.Endpoint
import AvroSwagger.Proofs.OrderedMap
import AvroSwagger.Proofs.Translation
import AvroSwagger.Proofs.Comparison
import AvroSwagger.Proofs.Acceptance
import AvroSwagger.Proofs.Collection
import AvroSwagger.Proofs.Reachability
import AvroSwagger.Proofs.Sharing
import AvroSwagger.Proofs.Exactness
import AvroSwagger.Proofs.DependencyOrder
import AvroSwagger.Proofs.Reading
import AvroSwagger.Proofs.References
import AvroSwagger.Proofs.Resolution
import AvroSwagger.Proofs.Representation
import AvroSwagger.Proofs.Overwriting
import AvroSwagger.Proofs.Events
import AvroSwagger.Proofs.ReadingRules
import AvroSwagger.Proofs.ReadingSteps
import AvroSwagger.Proofs.Grammar
import AvroSwagger.Proofs.Language
import AvroSwagger.Proofs.NameResolution
import AvroSwagger.Proofs.Layering
import AvroSwagger.Proofs.Values
import AvroSwagger.Proofs.Templates
import AvroSwagger.Proofs.Enclosure
import AvroSwagger.Proofs.Traversal
import AvroSwagger.Proofs.Acyclicity
import AvroSwagger.Proofs.Identity
import AvroSwagger.Proofs.Leftovers
import AvroSwagger.Proofs.RoundTrip
import AvroSwagger.Proofs.LayeringLaws
import AvroSwagger.Proofs.Publishing
import AvroSwagger.Proofs.Namespaces
import AvroSwagger.Proofs.Termination
import AvroSwagger.Proofs.Finishing
import AvroSwagger.Proofs.Translating
import AvroSwagger.Proofs.WrittenText
import AvroSwagger.Proofs.KeyOrder
