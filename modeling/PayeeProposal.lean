import PayeeProposal.Address
import PayeeProposal.Arguments
import PayeeProposal.AssociatedAddress
import PayeeProposal.Base58
import PayeeProposal.Base64
import PayeeProposal.Builder
import PayeeProposal.Bytes.Fixed
import PayeeProposal.Bytes.LittleEndian
import PayeeProposal.Cause
import PayeeProposal.Chain
import PayeeProposal.Command
import PayeeProposal.Commitment
import PayeeProposal.Config
import PayeeProposal.Deployment
import PayeeProposal.Digits
import PayeeProposal.Ed25519.Curve
import PayeeProposal.Ed25519.Signature
import PayeeProposal.Eligibility
import PayeeProposal.Endpoint
import PayeeProposal.FileTree
import PayeeProposal.Hash.Sha2
import PayeeProposal.Hash.Sha256
import PayeeProposal.Hash.Sha512
import PayeeProposal.Instruction
import PayeeProposal.Json.Failure
import PayeeProposal.Json.Layout
import PayeeProposal.Json.Number
import PayeeProposal.Json.Reader
import PayeeProposal.Json.Skip
import PayeeProposal.Json.Text
import PayeeProposal.Keypair
import PayeeProposal.Main
import PayeeProposal.Node
import PayeeProposal.Parameters
import PayeeProposal.PayeeInput
import PayeeProposal.Prompt
import PayeeProposal.Proofs.Address
import PayeeProposal.Proofs.AddressCache
import PayeeProposal.Proofs.Allowance
import PayeeProposal.Proofs.Arguments
import PayeeProposal.Proofs.Base58
import PayeeProposal.Proofs.Base64
import PayeeProposal.Proofs.Blank
import PayeeProposal.Proofs.Build
import PayeeProposal.Proofs.BuildStages
import PayeeProposal.Proofs.Command
import PayeeProposal.Proofs.Commas
import PayeeProposal.Proofs.Course
import PayeeProposal.Proofs.Decimal
import PayeeProposal.Proofs.Defaults
import PayeeProposal.Proofs.Delivery
import PayeeProposal.Proofs.Description
import PayeeProposal.Proofs.Dialogue
import PayeeProposal.Proofs.DryRun
import PayeeProposal.Proofs.Eligibility
import PayeeProposal.Proofs.Encoding
import PayeeProposal.Proofs.FanOut
import PayeeProposal.Proofs.Fields
import PayeeProposal.Proofs.Funding
import PayeeProposal.Proofs.Grammar
import PayeeProposal.Proofs.InputSource
import PayeeProposal.Proofs.Instruction
import PayeeProposal.Proofs.KeyNotation
import PayeeProposal.Proofs.KeyRights
import PayeeProposal.Proofs.KeyTable
import PayeeProposal.Proofs.Layout
import PayeeProposal.Proofs.Mappings
import PayeeProposal.Proofs.Letters
import PayeeProposal.Proofs.Overrides
import PayeeProposal.Proofs.Parameters
import PayeeProposal.Proofs.PayeeTable
import PayeeProposal.Proofs.Permutation
import PayeeProposal.Proofs.Prompt
import PayeeProposal.Proofs.Proposal
import PayeeProposal.Proofs.ProposalLayout
import PayeeProposal.Proofs.ProposalView
import PayeeProposal.Proofs.Protocol
import PayeeProposal.Proofs.Reading
import PayeeProposal.Proofs.Repetition
import PayeeProposal.Proofs.Report
import PayeeProposal.Proofs.Resolution
import PayeeProposal.Proofs.RunStages
import PayeeProposal.Proofs.Scalars
import PayeeProposal.Proofs.Session
import PayeeProposal.Proofs.Settings
import PayeeProposal.Proofs.Skipping
import PayeeProposal.Proofs.Spelling
import PayeeProposal.Proofs.Submission
import PayeeProposal.Proofs.Surplus
import PayeeProposal.Proofs.TokenAccount
import PayeeProposal.Proofs.Trailing.Reader
import PayeeProposal.Proofs.Trailing.Skip
import PayeeProposal.Proofs.Trailing.Text
import PayeeProposal.Proofs.Traversal
import PayeeProposal.Proofs.Verdict
import PayeeProposal.Proofs.Weaving
import PayeeProposal.Proofs.Wire
import PayeeProposal.Proposal
import PayeeProposal.ProposeError
import PayeeProposal.Report
import PayeeProposal.Submission
import PayeeProposal.Table
import PayeeProposal.Text.Blank
import PayeeProposal.Text.Split
import PayeeProposal.Text.Utf8
import PayeeProposal.TokenAccount
import PayeeProposal.Transaction
import PayeeProposal.Wallet
import PayeeProposal.Yaml.Cursor
import PayeeProposal.Yaml.Directive
import PayeeProposal.Yaml.Document
import PayeeProposal.Yaml.Node
import PayeeProposal.Yaml.Property
import PayeeProposal.Yaml.Reader
import PayeeProposal.Yaml.Scalar.Block
import PayeeProposal.Yaml.Scalar.Folding
import PayeeProposal.Yaml.Scalar.Plain
import PayeeProposal.Yaml.Scalar.Quoted
import PayeeProposal.Yaml.Token
import PayeeProposal.Yaml.TokenList
