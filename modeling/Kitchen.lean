import Kitchen.Journal.Wording
import Kitchen.Main
import Kitchen.Oven
import Kitchen.Proofs.Dish.Turning
import Kitchen.Proofs.Run.Round
import Kitchen.Proofs.Run.Serving
import Kitchen.Proofs.Run.Contract
import Kitchen.Proofs.Run.Shape
import Kitchen.Proofs.Run.Deeds
import Kitchen.Proofs.Run.Places
import Kitchen.Proofs.Run.Depth
import Kitchen.Proofs.Run.Budget
import Kitchen.Proofs.Run.Termination
import Kitchen.Proofs.Run.Growth
import Kitchen.Proofs.Run.Limit
import Kitchen.Proofs.Run.Rank
import Kitchen.Proofs.Run.Thinning
import Kitchen.Proofs.Run.Disabled
import Kitchen.Proofs.Json.Writable
import Kitchen.Proofs.Dish.Typing
import Kitchen.Proofs.Run.Typing
import Kitchen.Proofs.Run.Elsewhere
import Kitchen.Proofs.Run.Tranches
import Kitchen.Proofs.Run.Stepwise
import Kitchen.Proofs.Run.Stops
import Kitchen.Proofs.Run.Untouched
import Kitchen.Proofs.Run.Captures
import Kitchen.Proofs.Run.Beside
import Kitchen.Proofs.Run.Comments
import Kitchen.Proofs.Text.Utf8
import Kitchen.Proofs.Dish.Legible
import Kitchen.Proofs.Run.Overrun
import Kitchen.Proofs.Run.Pauses
import Kitchen.Proofs.Run.Cleared
import Kitchen.Proofs.Run.Resuming
import Kitchen.Proofs.Json.Rereading
import Kitchen.Proofs.Run.Escapes
import Kitchen.Proofs.Reference.Successive
import Kitchen.Proofs.Oven.Counter
import Kitchen.Proofs.Run.Straight
import Kitchen.Proofs.Run.Amid
import Kitchen.Proofs.Run.Sequence
import Kitchen.Proofs.Larder.Basic
import Kitchen.Proofs.Larder.Copies
import Kitchen.Proofs.Larder.Filling
import Kitchen.Proofs.Larder.Bench
import Kitchen.Proofs.Oven.Bakery
import Kitchen.Proofs.Dish.Detour
import Kitchen.Proofs.Dish.Lossless
import Kitchen.Proofs.Assembly.Settling
import Kitchen.Proofs.Run.Arguments
import Kitchen.Proofs.Assembly.Acceptance
import Kitchen.Proofs.Definition.Normal
import Kitchen.Proofs.Definition.Canonical
import Kitchen.Proofs.Cookbook.Requests
import Kitchen.Proofs.Storage.Search
import Kitchen.Proofs.Cookbook.Listing
import Kitchen.Proofs.Pattern.Substitution
import Kitchen.Proofs.Reference.Scanning
import Kitchen.Proofs.Run.Loops
import Kitchen.Proofs.Json.Orderly
import Kitchen.Proofs.Cookbook.Digests
import Kitchen.Proofs.Storage.Contents
import Kitchen.Proofs.Command.Words
import Kitchen.Proofs.Command.Sources
import Kitchen.Proofs.Command.Saving
import Kitchen.Proofs.Run.Pipeline
import Kitchen.Proofs.Transform.Hex
import Kitchen.Proofs.Pattern.Literal
import Kitchen.Proofs.Settings.Loading
import Kitchen.Proofs.Json.Accepted
import Kitchen.Proofs.Dish.InPlace
