import UtxoAssets.Json.Parser
import UtxoAssets.Payload.Step
import UtxoAssets.Render.Tx
import UtxoAssets.Proofs.Asset.Extension
import UtxoAssets.Proofs.Payload.Reading
import UtxoAssets.Proofs.Wire.SizeForm
import UtxoAssets.Proofs.Asset.RoundTrip
import UtxoAssets.Proofs.Asset.Size
import UtxoAssets.Proofs.Payload.Canonical
import UtxoAssets.Proofs.Asset.Canonical
import UtxoAssets.Proofs.Script.Parsing
import UtxoAssets.Proofs.Script.Carrier
import UtxoAssets.Proofs.Script.Flat
import UtxoAssets.Proofs.Script.Annotation
import UtxoAssets.Proofs.Wire.SelfDelimiting
import UtxoAssets.Proofs.Tx.Injective
import UtxoAssets.Proofs.Render.Section
import UtxoAssets.Proofs.Document.Members
import UtxoAssets.Proofs.Render.Calls
import UtxoAssets.Proofs.Render.Carried
import UtxoAssets.Proofs.Json.Lawful
import UtxoAssets.Proofs.Document.ReadBack
import UtxoAssets.Proofs.Render.Document
import UtxoAssets.Proofs.Render.Determined
import UtxoAssets.Proofs.Render.Influence
import UtxoAssets.Proofs.Script.Destination
import UtxoAssets.Proofs.Render.Gating
import UtxoAssets.Proofs.Render.Keys
import UtxoAssets.Proofs.Script.Signature
import UtxoAssets.Proofs.Script.MultiSig
import UtxoAssets.Proofs.Script.Template
import UtxoAssets.Proofs.Render.Script
import UtxoAssets.Proofs.Script.Malformed
import UtxoAssets.Proofs.Script.Number
import UtxoAssets.Proofs.Script.Listing
import UtxoAssets.Proofs.Asset.Total
import UtxoAssets.Proofs.Render.Overflow
import UtxoAssets.Proofs.Text.Numeral
import UtxoAssets.Proofs.Text.Amount
import UtxoAssets.Proofs.Render.Fees
import UtxoAssets.Proofs.Payload.WriteRead
import UtxoAssets.Proofs.Payload.Indexed
import UtxoAssets.Proofs.Asset.Count
import UtxoAssets.Proofs.Text.Hash
import UtxoAssets.Proofs.Wire.PrefixCode
