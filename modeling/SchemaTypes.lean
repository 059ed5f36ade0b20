import SchemaTypes.Address
import SchemaTypes.Attribute
import SchemaTypes.Attribute.Bounds
import SchemaTypes.Attribute.Document
import SchemaTypes.Attribute.Names
import SchemaTypes.Attribute.Producer
import SchemaTypes.Binary64
import SchemaTypes.Binary64.Shortest
import SchemaTypes.CommandLine
import SchemaTypes.CommandLine.Arguments
import SchemaTypes.Conversion
import SchemaTypes.Double
import SchemaTypes.Error
import SchemaTypes.FileTree
import SchemaTypes.Format
import SchemaTypes.Graph
import SchemaTypes.Graph.Admitted
import SchemaTypes.Graph.Builder
import SchemaTypes.Graph.Category
import SchemaTypes.Graph.Classes
import SchemaTypes.Graph.Document
import SchemaTypes.Graph.Duplicates
import SchemaTypes.Graph.Flattening
import SchemaTypes.Graph.Indirection
import SchemaTypes.Graph.Kind
import SchemaTypes.Graph.Naming
import SchemaTypes.Graph.Nullable
import SchemaTypes.Graph.Resolution
import SchemaTypes.Graph.Texts
import SchemaTypes.Graph.Unify
import SchemaTypes.Graph.Walk
import SchemaTypes.Json
import SchemaTypes.Json.Printer
import SchemaTypes.Json.Reader
import SchemaTypes.Json.Selection
import SchemaTypes.Keywords
import SchemaTypes.Loading
import SchemaTypes.Location
import SchemaTypes.Lookup
import SchemaTypes.Main
import SchemaTypes.Normalization
import SchemaTypes.Options
import SchemaTypes.OrderedMap
import SchemaTypes.Primitive
import SchemaTypes.Reference
import SchemaTypes.Resolver
import SchemaTypes.Run
import SchemaTypes.SchemaInput
import SchemaTypes.Scopes
import SchemaTypes.SortedMap
import SchemaTypes.SortedSet
import SchemaTypes.Source
import SchemaTypes.Stage
import SchemaTypes.Store
import SchemaTypes.Text.Alphanumeric
import SchemaTypes.Text.Cased
import SchemaTypes.Text.CharRange
import SchemaTypes.Text.CharTable
import SchemaTypes.Text.CombiningClass
import SchemaTypes.Text.Composition
import SchemaTypes.Text.Digit
import SchemaTypes.Text.Direction
import SchemaTypes.Text.Joining
import SchemaTypes.Text.Lowercase
import SchemaTypes.Text.Mark
import SchemaTypes.Text.NormalForm
import SchemaTypes.Text.Percent
import SchemaTypes.Text.Utf8
import SchemaTypes.Url
import SchemaTypes.Url.Domain
import SchemaTypes.Url.Host
import SchemaTypes.Url.NameMap
import SchemaTypes.Url.Path
import SchemaTypes.Url.Punycode
import SchemaTypes.Url.Reader
import SchemaTypes.Proofs.Admission
import SchemaTypes.Proofs.Collection
import SchemaTypes.Proofs.Simulation
import SchemaTypes.Proofs.Unification
import SchemaTypes.Proofs.Flattening
import SchemaTypes.Proofs.Classes
import SchemaTypes.Proofs.Descriptions
import SchemaTypes.Proofs.Nesting
import SchemaTypes.Proofs.Parts
import SchemaTypes.Proofs.Resolution
import SchemaTypes.Proofs.Following
import SchemaTypes.Proofs.Validity
import SchemaTypes.Proofs.Resolving
import SchemaTypes.Proofs.Promises
import SchemaTypes.Proofs.Included
import SchemaTypes.Proofs.Described
import SchemaTypes.Proofs.Conversion
import SchemaTypes.Proofs.Comparison
import SchemaTypes.Proofs.Flatness
import SchemaTypes.Proofs.NearlyFlat
import SchemaTypes.Proofs.Nullable
import SchemaTypes.Proofs.Keeping
import SchemaTypes.Proofs.Edits
import SchemaTypes.Proofs.Rows
import SchemaTypes.Proofs.Intersecting
import SchemaTypes.Proofs.Naming
import SchemaTypes.Proofs.Settling
import SchemaTypes.Proofs.Phases
import SchemaTypes.Proofs.Normalization
import SchemaTypes.Proofs.Failures
import SchemaTypes.Proofs.Numbering
import SchemaTypes.Proofs.Convergence
import SchemaTypes.Proofs.Winding
import SchemaTypes.Proofs.Closing
import SchemaTypes.Proofs.Splitting
import SchemaTypes.Proofs.Tangles
import SchemaTypes.Proofs.Depth
import SchemaTypes.Proofs.Crawling
import SchemaTypes.Proofs.Pointers
import SchemaTypes.Proofs.Retrieval
import SchemaTypes.Proofs.Moves
import SchemaTypes.Proofs.Alike
import SchemaTypes.Proofs.Keys
import SchemaTypes.Proofs.Termination
import SchemaTypes.Proofs.Gathering
import SchemaTypes.Proofs.Turns
import SchemaTypes.Proofs.Chains
import SchemaTypes.Proofs.Meaning
import SchemaTypes.Proofs.FixedClasses
import SchemaTypes.Proofs.Inference
import SchemaTypes.Proofs.Constraints
import SchemaTypes.Proofs.Places
import SchemaTypes.Proofs.Requests
import SchemaTypes.Proofs.Answering
import SchemaTypes.Proofs.Locality
import SchemaTypes.Proofs.Combination
import SchemaTypes.Proofs.Fetching
import SchemaTypes.Proofs.References
import SchemaTypes.Proofs.Building
import SchemaTypes.Proofs.Optionality
import SchemaTypes.Proofs.Isomorphism
import SchemaTypes.Proofs.Recollection
import SchemaTypes.Proofs.Registration
import SchemaTypes.Proofs.FinalNames
import SchemaTypes.Proofs.NameFlow
import SchemaTypes.Proofs.Dictionaries
import SchemaTypes.Proofs.Merging
import SchemaTypes.Proofs.Repetition
import SchemaTypes.Proofs.Variants
import SchemaTypes.Proofs.Documents
import SchemaTypes.Proofs.PropertyOrder
import SchemaTypes.Proofs.Requirements
import SchemaTypes.Proofs.ObjectShape
import SchemaTypes.Proofs.Requiring
import SchemaTypes.Proofs.Indexing
import SchemaTypes.Proofs.CommonStrings
import SchemaTypes.Proofs.NameSets
import SchemaTypes.Proofs.Forwarding
import SchemaTypes.Proofs.Escapes
import SchemaTypes.Proofs.Pointing
import SchemaTypes.Proofs.Visits
import SchemaTypes.Proofs.Malformed
import SchemaTypes.Proofs.DotSegments
import SchemaTypes.Proofs.Meeting
import SchemaTypes.Proofs.Searching
