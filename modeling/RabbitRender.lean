import RabbitRender.Arrays.IndexedTriangles
import RabbitRender.Arrays.LineStrips
import RabbitRender.Arrays.Viewport
import RabbitRender.Buffers.Coherence
import RabbitRender.Lighting.Coherence
import RabbitRender.Matrix.Coherence
import RabbitRender.Matrix.Selectors
import RabbitRender.Matrix.Stacks
import RabbitRender.Names.Generated
import RabbitRender.Pixelflinger.ClearColor
import RabbitRender.Pixelflinger.Codec
import RabbitRender.Pixelflinger.Overflows
import RabbitRender.Pixelflinger.PickCoherence
import RabbitRender.Raster.SharedEdges
import RabbitRender.Setters.Agreement
import RabbitRender.Arrays.FlatShading
import RabbitRender.Arrays.EyePositions
import RabbitRender.Arrays.PolygonState
import RabbitRender.Arrays.ColorRange
import RabbitRender.Drawing.Enables
import RabbitRender.Drawing.TextureState
import RabbitRender.Pixelflinger.Blits
import RabbitRender.Egl.ConfigPromise
import RabbitRender.Egl.BindingCoherence
import RabbitRender.Egl.Atomicity
import RabbitRender.Egl.GeometryCoherence
import RabbitRender.Arrays.Colors
import RabbitRender.Lib.Handles
import RabbitRender.Textures.Levels
import RabbitRender.Textures.Ownership
import RabbitRender.Textures.Uploads
import RabbitRender.Textures.Coverage
import RabbitRender.Textures.UploadErrors
import RabbitRender.Clipping.Triangles
import RabbitRender.Clipping.Bounds
import RabbitRender.Clipping.Interpolation
import RabbitRender.Arrays.Independent
import RabbitRender.Arrays.Elements
import RabbitRender.Arrays.IndexedPrimitives
import RabbitRender.Arrays.IndexedLines
import RabbitRender.Shaders.TokenBounds
import RabbitRender.Shaders.Preservation
import RabbitRender.Shaders.LimitBounds
import RabbitRender.Shaders.MaskSoundness
import RabbitRender.Textures.PyramidLevels
import RabbitRender.Textures.PyramidReads
import RabbitRender.Textures.PackedMeans
import RabbitRender.Textures.ByteMeans
import RabbitRender.Textures.PaletteSizes
import RabbitRender.Textures.PaletteBounds
import RabbitRender.Textures.RowPitch
import RabbitRender.Arrays.ElementFetch
import RabbitRender.Textures.LevelCalls
import RabbitRender.Raster.Passes
import RabbitRender.Matrix.Projection
import RabbitRender.Matrix.Inverse
import RabbitRender.Arrays.FaceCulling
import RabbitRender.Textures.DrawTexCopies
import RabbitRender.Lighting.SpotLights
import RabbitRender.Arrays.GradientShifts
import RabbitRender.Textures.FramebufferCopies
import RabbitRender.Raster.CoverageBounds
import RabbitRender.Pixelflinger.StepAgreement
import RabbitRender.Pixelflinger.PerspectiveSpans
import RabbitRender.Textures.TexelBounds
import RabbitRender.Pixelflinger.Environments
import RabbitRender.Pixelflinger.BlendSimplification
import RabbitRender.Pixelflinger.SourceOver
import RabbitRender.Pixelflinger.TexelRows
import RabbitRender.Pixelflinger.FlatFills
import RabbitRender.Pixelflinger.RectCopies
import RabbitRender.Pixelflinger.PixelMoves
import RabbitRender.Raster.Lines
import RabbitRender.Raster.Points
import RabbitRender.Clipping.ExactTriangles
import RabbitRender.Clipping.ExactLines
import RabbitRender.Arrays.ExactPlanes
import RabbitRender.Raster.EdgeAccuracy
import RabbitRender.Arrays.TexCoords
import RabbitRender.Arrays.PerspectiveBounds
import RabbitRender.Arrays.LevelOfDetail
import RabbitRender.Lighting.RootDigits
import RabbitRender.Raster.ScaledQuotients
import RabbitRender.Egl.SwapRegions
import RabbitRender.Egl.PartialSwaps
import RabbitRender.Egl.ConfigChoice
import RabbitRender.ReciprocalErrors
import RabbitRender.Lighting.LinearFog
import RabbitRender.Arrays.DepthOffsets
import RabbitRender.Raster.Tiles
import RabbitRender.Textures.FlatLevels
