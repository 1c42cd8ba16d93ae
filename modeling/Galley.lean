import Galley.Asset.Cache
import Galley.Asset.Fonts
import Galley.Asset.Handles
import Galley.Asset.Images
import Galley.Asset.Loaded
import Galley.Asset.Plan
import Galley.Asset.Script
import Galley.Asset.Store
import Galley.Bytes.Base64
import Galley.Bytes.Deflate
import Galley.Bytes.Digest
import Galley.Bytes.Hex
import Galley.Bytes.Utf8
import Galley.Decimal.Binary
import Galley.Decimal.Fixed
import Galley.Decimal.Layout
import Galley.Decimal.Nearest
import Galley.Decimal.Reading
import Galley.Decimal.Shortest
import Galley.Dict
import Galley.Document.Basic
import Galley.Document.Data
import Galley.Document.Kind
import Galley.Document.Measure
import Galley.Fault
import Galley.Font.Catalog
import Galley.Font.Decode
import Galley.Font.Face
import Galley.Font.Family
import Galley.Font.Registry
import Galley.Font.Stylesheet
import Galley.Font.Usage
import Galley.Image.DataUri
import Galley.Image.Format
import Galley.Image.Raster
import Galley.Image.Raster.Bmp
import Galley.Image.Raster.Dds
import Galley.Image.Raster.Exr
import Galley.Image.Raster.Flat
import Galley.Image.Raster.Gif
import Galley.Image.Raster.Hdr
import Galley.Image.Raster.Ico
import Galley.Image.Raster.Jpeg
import Galley.Image.Raster.Png
import Galley.Image.Raster.Pnm
import Galley.Image.Raster.Scan
import Galley.Image.Raster.Tiff
import Galley.Image.Raster.Webp
import Galley.Image.Source
import Galley.Json.Basic
import Galley.Json.Decode
import Galley.Json.Reader
import Galley.Json.Writer
import Galley.Markup.Flatten
import Galley.Markup.Node
import Galley.Markup.Outline
import Galley.Markup.Props
import Galley.Markup.Read
import Galley.Markup.Template
import Galley.Page.Decode
import Galley.Page.Dimensions
import Galley.Page.Edges
import Galley.Page.Size
import Galley.Press.Context
import Galley.Press.Engine
import Galley.Press.Renderer
import Galley.Proofs.Asset.CacheUse
import Galley.Proofs.Asset.FontCache
import Galley.Proofs.Asset.FontResolution
import Galley.Proofs.Asset.Growth
import Galley.Proofs.Asset.History
import Galley.Proofs.Asset.ImageResolution
import Galley.Proofs.Asset.InTurn
import Galley.Proofs.Asset.Interleaving
import Galley.Proofs.Asset.Producers
import Galley.Proofs.Asset.Registrations
import Galley.Proofs.Asset.RequestOrder
import Galley.Proofs.Asset.Traffic
import Galley.Proofs.Asset.WriteOnce
import Galley.Proofs.Bytes.Base64
import Galley.Proofs.Bytes.Utf8
import Galley.Proofs.Decimal.Exact
import Galley.Proofs.Decimal.Finite
import Galley.Proofs.Decimal.Natural
import Galley.Proofs.Decimal.Places
import Galley.Proofs.Decimal.ReadBack
import Galley.Proofs.Decimal.Rounded
import Galley.Proofs.Decimal.Sign
import Galley.Proofs.Except
import Galley.Proofs.Font.Catalog
import Galley.Proofs.Font.Family
import Galley.Proofs.Font.Registration
import Galley.Proofs.Font.Stylesheet
import Galley.Proofs.Image.DataUri
import Galley.Proofs.Image.Detection
import Galley.Proofs.Image.Identity
import Galley.Proofs.Json.Finite
import Galley.Proofs.Markup.FlawPath
import Galley.Proofs.Markup.Geometry
import Galley.Proofs.Markup.Overlay
import Galley.Proofs.Markup.Properties
import Galley.Proofs.Markup.Spelling
import Galley.Proofs.Page.Geometry
import Galley.Proofs.Page.Shorthand
import Galley.Proofs.Press.Accounting
import Galley.Proofs.Press.Assembly
import Galley.Proofs.Press.CacheContents
import Galley.Proofs.Press.Convergence
import Galley.Proofs.Press.FamilyKeys
import Galley.Proofs.Press.FontLoading
import Galley.Proofs.Press.ImageCache
import Galley.Proofs.Press.OneAttempt
import Galley.Proofs.Press.Precedence
import Galley.Proofs.Press.Shadowing
import Galley.Proofs.Press.SourceRules
import Galley.Proofs.Style.ClassString
import Galley.Proofs.Style.Dispatch
import Galley.Proofs.Style.Percentages
import Galley.Proofs.Style.Typing
import Galley.Proofs.Text.Cut
import Galley.Proofs.Text.LowerCase
import Galley.Proofs.Text.Words
import Galley.Proofs.Typeset.ComponentLimit
import Galley.Proofs.Typeset.Course
import Galley.Proofs.Typeset.Expansion
import Galley.Proofs.Typeset.FirstFault
import Galley.Proofs.Typeset.FontManifest
import Galley.Proofs.Typeset.ImageManifest
import Galley.Proofs.Typeset.ImageOrder
import Galley.Proofs.Typeset.Origin
import Galley.Proofs.Typeset.PageByPage
import Galley.Proofs.Typeset.Pieces
import Galley.Proofs.Typeset.ReferenceText
import Galley.Proofs.Typeset.Regrouping
import Galley.Proofs.Typeset.RootForms
import Galley.Proofs.Typeset.SheetGeometry
import Galley.Proofs.Typeset.Success
import Galley.Proofs.Typeset.Transparency
import Galley.Proofs.Typeset.UsageMerge
import Galley.Proofs.Typeset.Visits
import Galley.Proofs.Typeset.WellFormed
import Galley.Report
import Galley.Settings.Basic
import Galley.Settings.Decode
import Galley.Style.Decode
import Galley.Style.Palette
import Galley.Style.UtilityClass
import Galley.Style.UtilityTable
import Galley.Style.Value
import Galley.Text.Blank
import Galley.Text.Case
import Galley.Text.CaseClass
import Galley.Text.CaseMap
import Galley.Text.Cut
import Galley.Text.Extender
import Galley.Text.Ignorable
import Galley.Text.Quoted
import Galley.Text.Span
import Galley.Text.Unprintable
import Galley.Typeset.Expansion
import Galley.Typeset.Mention
import Galley.Typeset.Tree
import Galley.Typeset.Typography
