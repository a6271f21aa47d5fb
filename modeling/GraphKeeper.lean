import GraphKeeper.CommandLine
import GraphKeeper.Disk
import GraphKeeper.Failure
import GraphKeeper.Graph.Basic
import GraphKeeper.Graph.Change
import GraphKeeper.Graph.Entity
import GraphKeeper.Graph.LineFile
import GraphKeeper.Graph.Metadata
import GraphKeeper.Graph.Query
import GraphKeeper.Graph.Record
import GraphKeeper.Graph.Report
import GraphKeeper.Json.Decoder
import GraphKeeper.Json.Flaw
import GraphKeeper.Json.Outline
import GraphKeeper.Json.Printer
import GraphKeeper.Json.Reader
import GraphKeeper.Json.Value
import GraphKeeper.Main
import GraphKeeper.Number.Double
import GraphKeeper.Number.Shortest
import GraphKeeper.Proofs.Answers
import GraphKeeper.Proofs.Arguments
import GraphKeeper.Proofs.Batches
import GraphKeeper.Proofs.BlamedFields
import GraphKeeper.Proofs.CallFailures
import GraphKeeper.Proofs.CallLines
import GraphKeeper.Proofs.Catalogs
import GraphKeeper.Proofs.Deletions
import GraphKeeper.Proofs.Directories
import GraphKeeper.Proofs.DiskFiles
import GraphKeeper.Proofs.EdgeRewrites
import GraphKeeper.Proofs.EntitiesByBatches
import GraphKeeper.Proofs.EntityCalls
import GraphKeeper.Proofs.EntityEffects
import GraphKeeper.Proofs.EntityRefusals
import GraphKeeper.Proofs.EntityRuns
import GraphKeeper.Proofs.EntityTools
import GraphKeeper.Proofs.EntityTypes
import GraphKeeper.Proofs.EntityUpdates
import GraphKeeper.Proofs.FieldLabels
import GraphKeeper.Proofs.FileFaults
import GraphKeeper.Proofs.GraphChanges
import GraphKeeper.Proofs.GraphFile
import GraphKeeper.Proofs.InputSchemas
import GraphKeeper.Proofs.Integrity
import GraphKeeper.Proofs.JsonSchemas
import GraphKeeper.Proofs.JsonText
import GraphKeeper.Proofs.LetterCase
import GraphKeeper.Proofs.LineOrder
import GraphKeeper.Proofs.LineParts
import GraphKeeper.Proofs.LineUpdates
import GraphKeeper.Proofs.Listings
import GraphKeeper.Proofs.MergedLines
import GraphKeeper.Proofs.MetadataLines
import GraphKeeper.Proofs.MetadataReports
import GraphKeeper.Proofs.NewEntities
import GraphKeeper.Proofs.NoBlanks
import GraphKeeper.Proofs.OtherFiles
import GraphKeeper.Proofs.Payloads
import GraphKeeper.Proofs.PortableJson
import GraphKeeper.Proofs.Processes
import GraphKeeper.Proofs.Relationships
import GraphKeeper.Proofs.RepeatedLabels
import GraphKeeper.Proofs.Replies
import GraphKeeper.Proofs.Searches
import GraphKeeper.Proofs.Sequences
import GraphKeeper.Proofs.ServedLines
import GraphKeeper.Proofs.SessionCalls
import GraphKeeper.Proofs.SetUps
import GraphKeeper.Proofs.SharedKinds
import GraphKeeper.Proofs.StoreRuns
import GraphKeeper.Proofs.TextParts
import GraphKeeper.Proofs.TextsInPlace
import GraphKeeper.Proofs.TokensInPlace
import GraphKeeper.Proofs.ToolTables
import GraphKeeper.Proofs.Utf8
import GraphKeeper.Proofs.ValidDocuments
import GraphKeeper.Schema.Directory
import GraphKeeper.Schema.Document
import GraphKeeper.Schema.EntityType
import GraphKeeper.Session
import GraphKeeper.Settings
import GraphKeeper.Settings.Toml.DateTime
import GraphKeeper.Settings.Toml.Document
import GraphKeeper.Settings.Toml.Reader
import GraphKeeper.Settings.Toml.Token
import GraphKeeper.Settings.Value
import GraphKeeper.Store
import GraphKeeper.Text.Blank
import GraphKeeper.Text.Case
import GraphKeeper.Text.CaseTable
import GraphKeeper.Text.Quote
import GraphKeeper.Text.QuoteTable
import GraphKeeper.Text.Utf8
import GraphKeeper.Tool.Catalog
import GraphKeeper.Tool.EntityTool
import GraphKeeper.Tool.GraphTool
import GraphKeeper.Tool.Reply
import GraphKeeper.Tool.Request
