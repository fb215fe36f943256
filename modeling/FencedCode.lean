import FencedCode.Main
import FencedCode.Pipeline.Stages
import FencedCode.Tree.Path
import FencedCode.Proofs.NameMap
import FencedCode.Proofs.Wrapping
import FencedCode.Proofs.Elements
import FencedCode.Proofs.Finding
import FencedCode.Proofs.Stability
import FencedCode.Proofs.Double.Digits
import FencedCode.Proofs.Json.Numbers
import FencedCode.Proofs.Json.Strings
import FencedCode.Proofs.Double.Rounding
import FencedCode.Proofs.Double.Shortest
import FencedCode.Proofs.Json.Floats
import FencedCode.Proofs.Json.Range
import FencedCode.Proofs.Json.Significands
import FencedCode.Proofs.Json.Folds
import FencedCode.Proofs.Json.Values
import FencedCode.Proofs.PropertyMaps
import FencedCode.Proofs.Rereading
import FencedCode.Proofs.Documents
import FencedCode.Proofs.Conservation
import FencedCode.Proofs.Unwrapping
import FencedCode.Proofs.AcceptedSettings
import FencedCode.Proofs.Markup.Escaping
import FencedCode.Proofs.Markup.Names
import FencedCode.Proofs.Markup.Tokens
import FencedCode.Proofs.Markup.Reader
import FencedCode.Proofs.Markup.Reading
import FencedCode.Proofs.Languages
import FencedCode.Proofs.Rendering
import FencedCode.Proofs.Markup.WrapperTag
import FencedCode.Proofs.Json.FiniteNumbers
import FencedCode.Proofs.DecodedNumbers
import FencedCode.Proofs.OwnOutput
import FencedCode.Proofs.Pipeline.Running
import FencedCode.Proofs.Pipeline.History
import FencedCode.Proofs.Markup.Replacing
import FencedCode.Proofs.Markup.WrappedHtml
import FencedCode.Proofs.Termination
import FencedCode.Proofs.Files.Reading
import FencedCode.Proofs.Settings.Fields
import FencedCode.Proofs.Settings.Loading
import FencedCode.Proofs.Files.Writing
import FencedCode.Proofs.Command.Delivery
import FencedCode.Proofs.Command.Listing
import FencedCode.Proofs.Command.Scanning
import FencedCode.Proofs.ClassForms
import FencedCode.Proofs.Settings.Templates
import FencedCode.Proofs.Decoding.Edits
import FencedCode.Proofs.Decoding.PropertyChanges
import FencedCode.Proofs.Decoding.Members
import FencedCode.Proofs.Decoding.Nodes
import FencedCode.Proofs.Decoding.Strict
import FencedCode.Proofs.AddedClasses
import FencedCode.Proofs.Markup.WrittenTokens
import FencedCode.Proofs.Command.Rows
import FencedCode.Proofs.Markup.AttributeNames
