import HttpPipeline.Blob.Client
import HttpPipeline.Command.Classifications
import HttpPipeline.Command.Upload
import HttpPipeline.Http.Content
import HttpPipeline.Main
import HttpPipeline.Policy.Probe
import HttpPipeline.Script.Basic
import HttpPipeline.Proofs.Context
import HttpPipeline.Proofs.Journal
import HttpPipeline.Proofs.Retry.Attempts
import HttpPipeline.Proofs.Retry.Reference
import HttpPipeline.Proofs.Assembly
import HttpPipeline.Proofs.Assembly.Handovers
import HttpPipeline.Proofs.Assembly.Timing
import HttpPipeline.Proofs.Likeness
import HttpPipeline.Proofs.Secrecy
import HttpPipeline.Proofs.Transparency
import HttpPipeline.Proofs.Assembly.Account
import HttpPipeline.Proofs.Chain.Conduct
import HttpPipeline.Proofs.Chain.Order
import HttpPipeline.Proofs.Decisions
import HttpPipeline.Proofs.Request.Changes
import HttpPipeline.Proofs.Request.Acceptance
import HttpPipeline.Proofs.Text.Fields
import HttpPipeline.Proofs.Assembly.Room
import HttpPipeline.Proofs.Blob.Upload
import HttpPipeline.Proofs.Chain.Retries
import HttpPipeline.Proofs.Request.Query
import HttpPipeline.Proofs.Chain.Resending
import HttpPipeline.Proofs.Transport.Race
import HttpPipeline.Proofs.Retry.Backoff
import HttpPipeline.Proofs.Retry.Requested
import HttpPipeline.Proofs.Filter.Codes
import HttpPipeline.Proofs.Filter.Names
import HttpPipeline.Proofs.Message.Lines
import HttpPipeline.Proofs.Message.Order
import HttpPipeline.Proofs.Options.Sections
import HttpPipeline.Proofs.Options.Fields
import HttpPipeline.Proofs.Message.Shortening
