import OpenCdc.Postgres.Stream
import OpenCdc.Postgres.Streamer
import OpenCdc.Postgres.ColumnJson
import OpenCdc.Postgres.Malformed
import OpenCdc.Postgres.ConnectionString
import OpenCdc.Mysql.Emission
import OpenCdc.Mysql.Rows
import OpenCdc.Mysql.Snapshot
import OpenCdc.Mysql.Integers
import OpenCdc.Mysql.Dates
import OpenCdc.Mysql.TableMap
import OpenCdc.Mysql.BlobRow
import OpenCdc.Mysql.Decimal
import OpenCdc.Mysql.PacketSafety
import OpenCdc.Mysql.RowProgress
import OpenCdc.Mysql.TextRow
import OpenCdc.Mysql.SnapshotRows
import OpenCdc.Mysql.Commands
import OpenCdc.Mongodb.Stream
import OpenCdc.Mongodb.Delivery
import OpenCdc.Pipeline.Backpressure
import OpenCdc.Pipeline.Handoff
import OpenCdc.Pipeline.Disconnect
import OpenCdc.Pipeline.Lifecycle
import OpenCdc.Pipeline.Transforms
import OpenCdc.Pipeline.Restart
import OpenCdc.Pipeline.Stop
import OpenCdc.Pipeline.Markers
import OpenCdc.Pipeline.CatchUp
import OpenCdc.Pipeline.MysqlSession
import OpenCdc.Pipeline.SavedOffsets
import OpenCdc.Schema.Naming
import OpenCdc.Schema.Builder
import OpenCdc.Schema.Drift
import OpenCdc.Schema.Changes
import OpenCdc.Schema.Evolve
import OpenCdc.Schema.Nullability
import OpenCdc.Schema.Bridge
import OpenCdc.Schema.EvolutionRuns
import OpenCdc.Schema.RegistryClient
import OpenCdc.Serde.Json
import OpenCdc.Serde.Envelope
import OpenCdc.Serde.Batch
import OpenCdc.Serde.Avro
import OpenCdc.Serde.AvroFields
import OpenCdc.Serde.AvroNames
import OpenCdc.Serde.WireFormat
import OpenCdc.Sink.OpenLake
import OpenCdc.Sink.LakeHistories
import OpenCdc.Sink.RestCatalog
import OpenCdc.Mcp.Ownership
import OpenCdc.Mcp.Exclusion
import OpenCdc.Mcp.Totals
import OpenCdc.Mcp.Rest
import OpenCdc.Mcp.Health
import OpenCdc.Mcp.Tools
