import VisionServer.Library.Machine
import VisionServer.Library.Integers
import VisionServer.Library.Json
import VisionServer.Library.Exceptions
import VisionServer.Camera.VideoMode
import VisionServer.Camera.World
import VisionServer.Camera.Construct
import VisionServer.Config.Loader
import VisionServer.Config.Equivalence
import VisionServer.Camera.Calibration
import VisionServer.Config.Calibrations
import VisionServer.Camera.References
import VisionServer.Camera.Listeners
import VisionServer.Library.Callbacks
import VisionServer.Library.Loop
import VisionServer.Camera.Attached
import VisionServer.Camera.Registration
import VisionServer.Library.Chain
import VisionServer.Server.Sources
import VisionServer.Server.Counts
import VisionServer.Server.Streams
import VisionServer.Library.SharedLock
import VisionServer.Server.RunControl
import VisionServer.Server.Exclusion
import VisionServer.Server.Stopping
import VisionServer.Library.Aarch64
import VisionServer.Neon.Kernels
import VisionServer.Library.Streaming
import VisionServer.Neon.Extent
import VisionServer.Neon.Handover
import VisionServer.Neon.Exact
import VisionServer.Library.Binary64
import VisionServer.Library.Floating
import VisionServer.Server.StreamIndex
import VisionServer.Server.PipeOwnership
import VisionServer.Server.PipelineRunner
import VisionServer.Target.Lifetimes
import VisionServer.Library.Sessions
import VisionServer.Server.RunSingle
import VisionServer.Server.Instances
import VisionServer.Server.Compensation
import VisionServer.Camera.Buffers
import VisionServer.Server.Matrices
import VisionServer.Server.Turns
import VisionServer.Server.Covered
import VisionServer.Server.Addresses
import VisionServer.Server.Accesses
import VisionServer.Library.Blockwise
import VisionServer.Neon.Turns
import VisionServer.Neon.Blocks
import VisionServer.Neon.Streams
import VisionServer.Neon.Marks
import VisionServer.Neon.Weights
import VisionServer.Neon.Gray
import VisionServer.Neon.Continued
import VisionServer.Neon.Wrappers
import VisionServer.Neon.Pairs
import VisionServer.Camera.Controls
import VisionServer.Camera.Settings
import VisionServer.Config.Startup
import VisionServer.Camera.Modes
import VisionServer.Config.CalibList
import VisionServer.Camera.Arrays
import VisionServer.Config.Resolutions
import VisionServer.Config.Entries
import VisionServer.Config.Documented
import VisionServer.Server.Sequential
import VisionServer.Neon.Fused
import VisionServer.Neon.Images
import VisionServer.Library.Agreement
import VisionServer.Neon.Upper
import VisionServer.Neon.Passes
import VisionServer.Camera.JsonMode
import VisionServer.Vision.Centers
import VisionServer.Config.CalibSearch
import VisionServer.Config.CalibSizes
import VisionServer.Library.Lines
import VisionServer.Inference.Labels
import VisionServer.Inference.LabelFiles
import VisionServer.Inference.Construct
import VisionServer.Inference.Input
import VisionServer.Inference.Detections
import VisionServer.Library.Aarch32
import VisionServer.Neon.Twins
import VisionServer.Vision.Extrusion
import VisionServer.Library.Vectors
import VisionServer.Vision.Reinsert
import VisionServer.Library.Overwrite
import VisionServer.Library.Aarch32Vectors
import VisionServer.Library.Aarch32Loops
import VisionServer.Library.Kept
import VisionServer.Neon.Family32
import VisionServer.Neon.Turns32
import VisionServer.Neon.Calls32
import VisionServer.Neon.Ports
import VisionServer.Neon.Planar
import VisionServer.Library.Variants
import VisionServer.Server.Runners
import VisionServer.Server.Status
import VisionServer.Server.Shutdown
import VisionServer.Server.StreamEntries
import VisionServer.Library.Rounding
import VisionServer.Library.Doubles
import VisionServer.Vision.Rescale
import VisionServer.Inference.Joints
import VisionServer.Library.Sorting
import VisionServer.Vision.Reorder
import VisionServer.Vision.RectCenters
import VisionServer.Library.Quotients
import VisionServer.Server.Pacing
