import Ssimulacra2.Lib.Lists
import Ssimulacra2.Lib.LittleEndian
import Ssimulacra2.Lib.Loop
import Ssimulacra2.Lib.Words
import Ssimulacra2.Lib.Fill
import Ssimulacra2.Lib.Cells
import Ssimulacra2.Lib.Slots
import Ssimulacra2.Lib.Convolution
import Ssimulacra2.Lib.Weights
import Ssimulacra2.Lib.Fallible
import Ssimulacra2.Lib.Ledger
import Ssimulacra2.Lib.Triples
import Ssimulacra2.Primitives
import Ssimulacra2.Planes
import Ssimulacra2.Cbrt
import Ssimulacra2.Linear
import Ssimulacra2.Command
import Ssimulacra2.Png.Chunks
import Ssimulacra2.Blur.Coeffs
import Ssimulacra2.Blur.Cpu
import Ssimulacra2.Blur.Reference
import Ssimulacra2.Blur.Shaders
import Ssimulacra2.Blur.Agree
import Ssimulacra2.Blur.Recurrence
import Ssimulacra2.Blur.Table
import Ssimulacra2.Blur.Row
import Ssimulacra2.Blur.Kernel
import Ssimulacra2.Blur.Gaussian
import Ssimulacra2.Blur.Moments
import Ssimulacra2.Score
import Ssimulacra2.ScoreOrder
import Ssimulacra2.Engine
import Ssimulacra2.Images
import Ssimulacra2.Range
import Ssimulacra2.Scales
import Ssimulacra2.Identity
import Ssimulacra2.Ssim
import Ssimulacra2.Blur.Lines
import Ssimulacra2.Blur.Plane
import Ssimulacra2.Transpose
import Ssimulacra2.Vulkan.Driver
import Ssimulacra2.Vulkan.Context
import Ssimulacra2.Vulkan.Engine
import Ssimulacra2.Vulkan.Frame
import Ssimulacra2.Vulkan.Healthy
import Ssimulacra2.Vulkan.Steps
import Ssimulacra2.Vulkan.Session
import Ssimulacra2.Vulkan.Values
import Ssimulacra2.Vulkan.Meaning
import Ssimulacra2.Vulkan.Rounds
import Ssimulacra2.Vulkan.Prepared
import Ssimulacra2.Vulkan.Parity
import Ssimulacra2.Vulkan.Panics
import Ssimulacra2.Vulkan.Fits
import Ssimulacra2.Vulkan.Calls
import Ssimulacra2.Vulkan.Ledger
import Ssimulacra2.Vulkan.Custody
import Ssimulacra2.Vulkan.Ops
import Ssimulacra2.Vulkan.Queue
import Ssimulacra2.Vulkan.Batch
import Ssimulacra2.Vulkan.Shaders
import Ssimulacra2.Vulkan.Identity
import Ssimulacra2.Vulkan.Kernels
import Ssimulacra2.Vulkan.Pair
import Ssimulacra2.Vulkan.Engines
import Ssimulacra2.Vulkan.SelfComparison
import Ssimulacra2.Vulkan.ScoreMany
import Ssimulacra2.Vulkan.Contract
import Ssimulacra2.Bytes
import Ssimulacra2.Png.Decode
import Ssimulacra2.Png.Normalize
import Ssimulacra2.Png.Lossless
import Ssimulacra2.Png.Overwrite
import Ssimulacra2.Png.Main
import Ssimulacra2.Png.Neutral
import Ssimulacra2.Png.Routing
import Ssimulacra2.Png.Transparency
import Ssimulacra2.Reference.Metric
import Ssimulacra2.Reference.Agree
import Ssimulacra2.Reference.Port
import Ssimulacra2.Reference.Strips
import Ssimulacra2.Reference.FastGaussian
import Ssimulacra2.Reference.Xyb
import Ssimulacra2.Reference.Dump
import Ssimulacra2.Vulkan.Shaders32
import Ssimulacra2.Vulkan.NoWrap
import Ssimulacra2.Vulkan.Bounds
import Ssimulacra2.Vulkan.Grid
import Ssimulacra2.Vulkan.Launches
