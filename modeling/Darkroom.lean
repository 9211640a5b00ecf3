import Darkroom.Build
import Darkroom.Catalog
import Darkroom.ChannelSet
import Darkroom.Color.Basic
import Darkroom.Color.Parser
import Darkroom.CommandLine.Arguments
import Darkroom.CommandLine.Basic
import Darkroom.Configuration
import Darkroom.Configuration.Stock
import Darkroom.Description.Basic
import Darkroom.Description.Image
import Darkroom.Description.Request
import Darkroom.Description.Settings
import Darkroom.Digest.Sha256
import Darkroom.Digest.SipHash
import Darkroom.Disk
import Darkroom.Engine.Basic
import Darkroom.Engine.Files
import Darkroom.Engine.Pixel
import Darkroom.Engine.Recording
import Darkroom.Engine.Standard
import Darkroom.Engine.Transform
import Darkroom.Fault
import Darkroom.FileFormat
import Darkroom.Geometry.Amount
import Darkroom.Geometry.Basic
import Darkroom.Geometry.Fit
import Darkroom.Geometry.Page
import Darkroom.Geometry.Rect
import Darkroom.Geometry.Scenes
import Darkroom.Geometry.Tiles
import Darkroom.Image
import Darkroom.ImageCache
import Darkroom.IncidentLog
import Darkroom.Instances
import Darkroom.Invocation
import Darkroom.Keyword.Basic
import Darkroom.Keyword.Coding
import Darkroom.Keyword.Composition
import Darkroom.Keyword.Drawing
import Darkroom.Keyword.Family
import Darkroom.Keyword.Operation
import Darkroom.Keyword.Topic
import Darkroom.Limits
import Darkroom.Listing
import Darkroom.Main
import Darkroom.Nesting
import Darkroom.Number.Binary
import Darkroom.Number.Decimal
import Darkroom.Number.Fixed
import Darkroom.Number.Integer
import Darkroom.Number.Scalar
import Darkroom.Number.Shortest
import Darkroom.Operators.Image.Attributes
import Darkroom.Operators.Image.Basic
import Darkroom.Operators.Image.Catalog
import Darkroom.Operators.Image.Detail
import Darkroom.Operators.Image.Shape
import Darkroom.Operators.Image.SparseColor
import Darkroom.Operators.Image.Tone
import Darkroom.Operators.List
import Darkroom.Operators.Setting
import Darkroom.Pixels.Bitmap
import Darkroom.Pixels.Blur
import Darkroom.Pixels.Compose
import Darkroom.Pixels.Hsl
import Darkroom.Pixels.Layers
import Darkroom.Pixels.Neighborhood
import Darkroom.Pixels.Paint
import Darkroom.Pixels.Palette
import Darkroom.Pixels.Raster
import Darkroom.Pixels.Resample
import Darkroom.Pixels.Shape
import Darkroom.Pixels.Tone
import Darkroom.Proofs.ChannelSet
import Darkroom.Proofs.Color.Distance
import Darkroom.Proofs.Color.Forms
import Darkroom.Proofs.Color.Hexadecimal
import Darkroom.Proofs.Color.Hsl
import Darkroom.Proofs.Color.Levels
import Darkroom.Proofs.Color.Stretch
import Darkroom.Proofs.Configuration
import Darkroom.Proofs.Disk
import Darkroom.Proofs.Geometry.Amount
import Darkroom.Proofs.Geometry.Area
import Darkroom.Proofs.Geometry.Bounds
import Darkroom.Proofs.Geometry.Direction
import Darkroom.Proofs.Geometry.Fit
import Darkroom.Proofs.Geometry.Page
import Darkroom.Proofs.Geometry.Rect
import Darkroom.Proofs.Geometry.Scenes
import Darkroom.Proofs.Geometry.Tiles
import Darkroom.Proofs.Number.Approximation
import Darkroom.Proofs.Number.Arithmetic
import Darkroom.Proofs.Number.Decimal
import Darkroom.Proofs.Number.Double
import Darkroom.Proofs.Number.Extent
import Darkroom.Proofs.Number.Nearest
import Darkroom.Proofs.Number.Rational
import Darkroom.Proofs.Number.Rounding
import Darkroom.Proofs.Number.Shortest
import Darkroom.Proofs.Number.Turns
import Darkroom.Proofs.Number.Whole
import Darkroom.Proofs.Numbering
import Darkroom.Proofs.Operators.Bands
import Darkroom.Proofs.Operators.Extent
import Darkroom.Proofs.Operators.Image
import Darkroom.Proofs.Operators.List
import Darkroom.Proofs.Operators.Operands
import Darkroom.Proofs.Operators.Plans
import Darkroom.Proofs.Operators.Rearrangement
import Darkroom.Proofs.Operators.Setting
import Darkroom.Proofs.Operators.SparseColor
import Darkroom.Proofs.Operators.Survival
import Darkroom.Proofs.Path
import Darkroom.Proofs.Pixels.Append
import Darkroom.Proofs.Pixels.Bands
import Darkroom.Proofs.Pixels.Drawings
import Darkroom.Proofs.Pixels.Flood
import Darkroom.Proofs.Pixels.Histogram
import Darkroom.Proofs.Pixels.Layers
import Darkroom.Proofs.Pixels.Merge
import Darkroom.Proofs.Pixels.Palette
import Darkroom.Proofs.Pixels.Raster
import Darkroom.Proofs.Pixels.Symmetry
import Darkroom.Proofs.Pixels.Trim
import Darkroom.Proofs.Pixels.Values
import Darkroom.Proofs.Placement
import Darkroom.Proofs.Reel.Handles
import Darkroom.Proofs.Reel.History
import Darkroom.Proofs.Reel.Places
import Darkroom.Proofs.Reel.Rearrangement
import Darkroom.Proofs.Reel.Refinement
import Darkroom.Proofs.Reel.Removal
import Darkroom.Proofs.Reel.WellFormed
import Darkroom.Proofs.Reel.Whole
import Darkroom.Proofs.Session.Assembly
import Darkroom.Proofs.Session.Attempts
import Darkroom.Proofs.Session.Brackets
import Darkroom.Proofs.Session.Cache
import Darkroom.Proofs.Session.Cloning
import Darkroom.Proofs.Session.Combination
import Darkroom.Proofs.Session.CommandLine
import Darkroom.Proofs.Session.Composition
import Darkroom.Proofs.Session.Deletion
import Darkroom.Proofs.Session.Enclosing
import Darkroom.Proofs.Session.Exhaustion
import Darkroom.Proofs.Session.Extremes
import Darkroom.Proofs.Session.Failure
import Darkroom.Proofs.Session.Fatal
import Darkroom.Proofs.Session.Incidents
import Darkroom.Proofs.Session.Invariant
import Darkroom.Proofs.Session.Limits
import Darkroom.Proofs.Session.Lingering
import Darkroom.Proofs.Session.Moments
import Darkroom.Proofs.Session.Negation
import Darkroom.Proofs.Session.Order
import Darkroom.Proofs.Session.Pass
import Darkroom.Proofs.Session.Placement
import Darkroom.Proofs.Session.Rearrangement
import Darkroom.Proofs.Session.Rebuilding
import Darkroom.Proofs.Session.Recast
import Darkroom.Proofs.Session.Recoloring
import Darkroom.Proofs.Session.Redrawing
import Darkroom.Proofs.Session.Reduction
import Darkroom.Proofs.Session.Remapping
import Darkroom.Proofs.Session.Rolling
import Darkroom.Proofs.Session.Separation
import Darkroom.Proofs.Session.Stretching
import Darkroom.Proofs.Session.Turning
import Darkroom.Proofs.Session.Unwinding
import Darkroom.Proofs.Session.Values
import Darkroom.Proofs.Settings
import Darkroom.Proofs.Table
import Darkroom.Proofs.Template
import Darkroom.Proofs.Text
import Darkroom.Proofs.Toml.Document
import Darkroom.Proofs.Toml.Merge
import Darkroom.Reel
import Darkroom.Report
import Darkroom.Session.Apply
import Darkroom.Session.Basic
import Darkroom.Session.Brackets
import Darkroom.Session.Run
import Darkroom.Session.Special
import Darkroom.Settings
import Darkroom.Settings.Basic
import Darkroom.Settings.Drawing
import Darkroom.Table
import Darkroom.Template
import Darkroom.Text.Basic
import Darkroom.Text.Escaped
import Darkroom.Text.Path
import Darkroom.Toml.Basic
import Darkroom.Toml.Document
import Darkroom.Toml.Quoted
import Darkroom.Toml.Scalar
import Darkroom.Toml.Statement
import Darkroom.Toml.Tree
