import VolumeClaim.Text
import VolumeClaim.Text.Digits
import VolumeClaim.Text.Digits.Place
import VolumeClaim.Text.Split
import VolumeClaim.Magnitude
import VolumeClaim.Magnitude.Limbs
import VolumeClaim.Magnitude.Product
import VolumeClaim.Magnitude.Division
import VolumeClaim.Magnitude.Order
import VolumeClaim.Magnitude.Decimal
import VolumeClaim.Quantity
import VolumeClaim.Quantity.Literal
import VolumeClaim.Quantity.Order
import VolumeClaim.Quantity.Canonical
import VolumeClaim.Text.Numeral
import VolumeClaim.Keyed
import VolumeClaim.TextMap
import VolumeClaim.AccessMode
import VolumeClaim.Request
import VolumeClaim.Draft
import VolumeClaim.Number
import VolumeClaim.Number.Literal
import VolumeClaim.Value
import VolumeClaim.Value.Json
import VolumeClaim.Value.Json.RoundTrip
import VolumeClaim.Claim
import VolumeClaim.Claim.Document
import VolumeClaim.Claim.RoundTrip
import VolumeClaim.Claim.LastApplied
import VolumeClaim.Node
import VolumeClaim.Node.Typing
import VolumeClaim.Node.Writing
import VolumeClaim.Output
import VolumeClaim.Path
import VolumeClaim.Path.Location
import VolumeClaim.FileTree
import VolumeClaim.Store.Fault
import VolumeClaim.Store.Memory
import VolumeClaim.Store.Disk
import VolumeClaim.Store
import VolumeClaim.Environment
import VolumeClaim.Settings
import VolumeClaim.Log
import VolumeClaim.Options
import VolumeClaim.Options.Arguments
import VolumeClaim.Create
import VolumeClaim.CommandLine
import VolumeClaim.Value.Indented
import VolumeClaim.Node.Layout
import VolumeClaim.Output.Rendering
import VolumeClaim.Main
import VolumeClaim.Proofs.Quantity.Value
import VolumeClaim.Proofs.Quantity.Grammar
import VolumeClaim.Proofs.Text.Numeral
import VolumeClaim.Proofs.Quantity.Scale
import VolumeClaim.Proofs.Quantity.Comparison
import VolumeClaim.Proofs.Quantity.Reduction
import VolumeClaim.Proofs.Quantity.Unit
import VolumeClaim.Proofs.Quantity.CanonicalText
import VolumeClaim.Proofs.Quantity.Denotation
import VolumeClaim.Proofs.Quantity.CanonicalForm
import VolumeClaim.Proofs.Except
import VolumeClaim.Proofs.Draft
import VolumeClaim.Proofs.Draft.Outcome
import VolumeClaim.Proofs.Quantity.RoundTrip
import VolumeClaim.Proofs.Claim.Sound
import VolumeClaim.Proofs.Path.Place
import VolumeClaim.Proofs.Path.Way
import VolumeClaim.Proofs.FileTree
import VolumeClaim.Proofs.FileTree.Reach
import VolumeClaim.Proofs.Store.Creation
import VolumeClaim.Proofs.Store.Holding
import VolumeClaim.Proofs.Store.History
import VolumeClaim.Proofs.Store.Memory
import VolumeClaim.Proofs.Store.Disk
import VolumeClaim.Proofs.Store.Exchange
import VolumeClaim.Proofs.Create.Run
import VolumeClaim.Proofs.Create.Session
import VolumeClaim.Proofs.Create.Atomic
import VolumeClaim.Proofs.FileTree.Hidden
import VolumeClaim.Proofs.Store.Course
import VolumeClaim.Proofs.Create.DryRun
import VolumeClaim.Proofs.TextMap
import VolumeClaim.Proofs.Claim.LastApplied
import VolumeClaim.Proofs.Create.Recording
import VolumeClaim.Proofs.Options.Spelling
import VolumeClaim.Proofs.CommandLine.Naming
import VolumeClaim.Proofs.CommandLine.Run
import VolumeClaim.Proofs.CommandLine.Again
import VolumeClaim.Proofs.CommandLine.Contract
import VolumeClaim.Proofs.CommandLine.Globals
import VolumeClaim.Proofs.Quantity.FixedText
import VolumeClaim.Proofs.Number.Literal
import VolumeClaim.Proofs.Value.Texts
import VolumeClaim.Proofs.Node.ReadBack
import VolumeClaim.Proofs.Claim.ReadBack
import VolumeClaim.Proofs.Claim.Agreement
import VolumeClaim.Proofs.Path.Confinement
import VolumeClaim.Proofs.Options.Letter
import VolumeClaim.Proofs.Options.Order
import VolumeClaim.Proofs.Node.Printed
import VolumeClaim.Proofs.Claim.Printed
import VolumeClaim.Proofs.Node.CoreSchema
import VolumeClaim.Proofs.Node.Mapping
import VolumeClaim.Proofs.Settings.Document
import VolumeClaim.Proofs.Node.Departure
import VolumeClaim.Proofs.Node.Order
import VolumeClaim.Proofs.Settings.Order
import VolumeClaim.Proofs.Log.Fields
import VolumeClaim.Proofs.Log.History
import VolumeClaim.Proofs.Magnitude.Checked
import VolumeClaim.Proofs.Magnitude.Refinement
import VolumeClaim.Proofs.Text.Split
import VolumeClaim.Proofs.Magnitude.Digits
import VolumeClaim.Proofs.Quantity.Checked
import VolumeClaim.Proofs.Quantity.Exponents
