import Lineage.Cli.Arguments
import Lineage.Cli.Command
import Lineage.Cli.Console
import Lineage.Cli.Layout
import Lineage.Cli.Run
import Lineage.Cli.Session
import Lineage.Cli.Workspace
import Lineage.Config
import Lineage.Distinct
import Lineage.Evidence
import Lineage.Export.Dot
import Lineage.Export.Json
import Lineage.Hierarchy
import Lineage.Keyed
import Lineage.Lexical.BaseList
import Lineage.Lexical.Boundary
import Lineage.Lexical.Declaration
import Lineage.Lexical.Extension
import Lineage.Lexical.Import
import Lineage.Lexical.Scan
import Lineage.Lexical.Tag
import Lineage.Locate
import Lineage.Main
import Lineage.Notice
import Lineage.Path
import Lineage.Project
import Lineage.Proofs.Cli.Configuring
import Lineage.Proofs.Cli.DefaultFolder
import Lineage.Proofs.Cli.Effects
import Lineage.Proofs.Cli.Exports
import Lineage.Proofs.Cli.Histories
import Lineage.Proofs.Cli.Selections
import Lineage.Proofs.Cli.Sessions
import Lineage.Proofs.Config.Calls
import Lineage.Proofs.Config.Content
import Lineage.Proofs.Config.Histories
import Lineage.Proofs.Config.Loading
import Lineage.Proofs.Config.Normal
import Lineage.Proofs.Config.Overrides
import Lineage.Proofs.Config.Preservation
import Lineage.Proofs.Config.Saving
import Lineage.Proofs.Export.JsonCharacters
import Lineage.Proofs.Export.JsonReading
import Lineage.Proofs.Export.JsonScanning
import Lineage.Proofs.Export.Quotient
import Lineage.Proofs.Export.Quoting
import Lineage.Proofs.Export.Transcripts
import Lineage.Proofs.Hierarchy.Agreement
import Lineage.Proofs.Hierarchy.Branches
import Lineage.Proofs.Hierarchy.Building
import Lineage.Proofs.Hierarchy.Findings
import Lineage.Proofs.Hierarchy.Lookups
import Lineage.Proofs.Hierarchy.Nominees
import Lineage.Proofs.Hierarchy.Pruning
import Lineage.Proofs.Hierarchy.Reach
import Lineage.Proofs.Hierarchy.Recursion
import Lineage.Proofs.Hierarchy.Roots
import Lineage.Proofs.Hierarchy.Unfolding
import Lineage.Proofs.Lexical.Declared
import Lineage.Proofs.Lexical.Headers
import Lineage.Proofs.Lexical.ImportForms
import Lineage.Proofs.Lexical.Mentions
import Lineage.Proofs.Lexical.Overlaps
import Lineage.Proofs.Lexical.Position
import Lineage.Proofs.Lexical.Scans
import Lineage.Proofs.Lexical.Subclasses
import Lineage.Proofs.Scan.Answers
import Lineage.Proofs.Scan.Composed
import Lineage.Proofs.Scan.Contributions
import Lineage.Proofs.Scan.Evidence
import Lineage.Proofs.Scan.ExtensionGroups
import Lineage.Proofs.Scan.Faults
import Lineage.Proofs.Scan.Folders
import Lineage.Proofs.Scan.Inventory
import Lineage.Proofs.Scan.Kinds
import Lineage.Proofs.Scan.Listing
import Lineage.Proofs.Scan.Precedence
import Lineage.Proofs.Scan.Queries
import Lineage.Proofs.Scan.Reach
import Lineage.Proofs.Scan.Reading
import Lineage.Proofs.Scan.Records
import Lineage.Proofs.Scan.Renaming
import Lineage.Proofs.Scan.Sessions
import Lineage.Proofs.Scan.Steady
import Lineage.Proofs.Store.Agreement
import Lineage.Proofs.Store.Making
import Lineage.Proofs.Store.Places
import Lineage.Proofs.Store.Removal
import Lineage.Proofs.Store.Renaming
import Lineage.Proofs.Store.Spelling
import Lineage.Proofs.Tags.Attested
import Lineage.Proofs.Tags.Commands
import Lineage.Proofs.Tags.Groups
import Lineage.Proofs.Tags.Imports
import Lineage.Proofs.Tags.Names
import Lineage.Proofs.Tags.Openings
import Lineage.Proofs.Tags.Residues
import Lineage.Proofs.Tags.Spellings
import Lineage.Proofs.Tags.Stages
import Lineage.Proofs.Tags.Tallies
import Lineage.Proofs.Tags.Templates
import Lineage.Proofs.Text.Decoding
import Lineage.Proofs.Text.LineEnds
import Lineage.Proofs.Unicode.Edges
import Lineage.Proofs.Unicode.LetterCase
import Lineage.Proofs.View.Expansion
import Lineage.Relation
import Lineage.RootChoice
import Lineage.Settings
import Lineage.Store
import Lineage.Text.Basic
import Lineage.Text.ControlSequence
import Lineage.Text.Hexadecimal
import Lineage.Text.Newlines
import Lineage.Text.Order
import Lineage.Text.Quoted
import Lineage.Text.Utf8
import Lineage.Toml.Codec
import Lineage.Toml.Distinct
import Lineage.Toml.Document
import Lineage.Toml.Entry
import Lineage.Toml.Fault
import Lineage.Toml.Fraction
import Lineage.Toml.Layout
import Lineage.Toml.Literal
import Lineage.Toml.Moment
import Lineage.Toml.Printer
import Lineage.Tree
import Lineage.Unicode.Blank
import Lineage.Unicode.Digit
import Lineage.Unicode.Lowercase
import Lineage.Unicode.Printable
import Lineage.Unicode.Ranges
import Lineage.Unicode.Word
import Lineage.Usage
import Lineage.Value
import Lineage.View.Display
import Lineage.View.Markup
import Lineage.View.Outline
import Lineage.View.Row
