import QueryPipeline.Client
import QueryPipeline.Double.Text
import QueryPipeline.Proofs.Aggregation.Checked
import QueryPipeline.Proofs.Aggregation.CheckedTwice
import QueryPipeline.Proofs.Aggregation.ChildJoin
import QueryPipeline.Proofs.Aggregation.Isolated
import QueryPipeline.Proofs.Aggregation.OwnerId
import QueryPipeline.Proofs.Aggregation.Pages
import QueryPipeline.Proofs.Aggregation.Reordered
import QueryPipeline.Proofs.Aggregation.Resolution
import QueryPipeline.Proofs.Aggregation.Settled
import QueryPipeline.Proofs.Aggregation.WellFormed
import QueryPipeline.Proofs.Client.Unclosed
import QueryPipeline.Proofs.Embed.Exactness
import QueryPipeline.Proofs.Embed.FieldsRead
import QueryPipeline.Proofs.Embed.LongestMatch
import QueryPipeline.Proofs.Embed.Obstacles
import QueryPipeline.Proofs.Embed.ParentsFirst
import QueryPipeline.Proofs.ObjectId
import QueryPipeline.Proofs.Query.Keys
import QueryPipeline.Proofs.Query.Normalizes
import QueryPipeline.Proofs.Query.ParsedAgain
import QueryPipeline.Proofs.Query.Reported
import QueryPipeline.Proofs.Query.Sorting
import QueryPipeline.Proofs.Query.SpelledPage
import QueryPipeline.Proofs.Query.TextParameters
import QueryPipeline.Proofs.Rebase
import QueryPipeline.Proofs.Schema.Answers
import QueryPipeline.Query.Parameters
import QueryPipeline.Schema.Source
import QueryPipeline.Settings
