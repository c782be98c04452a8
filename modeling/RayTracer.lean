import RayTracer.Description.Printer
import RayTracer.Geometry.Display
import RayTracer.Json.Reader
import RayTracer.Main
import RayTracer.Proofs.Exact.Compositions
import RayTracer.Proofs.Image.FloatMapFormat
import RayTracer.Proofs.Image.FloatMapRoundTrip
import RayTracer.Proofs.Random.Period
import RayTracer.Proofs.Render.BucketPartition
import RayTracer.Proofs.Render.BucketRendering
import RayTracer.Proofs.Render.Furnace
import RayTracer.Proofs.Render.Superposition
import RayTracer.Proofs.Scene.FirstNearest
import RayTracer.Proofs.Render.CallSequence
import RayTracer.Proofs.Exact.Actions
import RayTracer.Proofs.Render.MovedPictures
import RayTracer.Proofs.CommandLine.DrawlessCommands
import RayTracer.Proofs.Scene.HitGeometry
import RayTracer.Proofs.Scene.Visibility
import RayTracer.Proofs.Render.EnergyBound
import RayTracer.Proofs.Description.SceneBuilding
import RayTracer.Proofs.Description.SceneLoading
import RayTracer.Proofs.Render.Executions
import RayTracer.Proofs.Render.DrawCounts
import RayTracer.Proofs.Exact.Chains
import RayTracer.Proofs.Image.FloatMapFixedPoints
import RayTracer.Proofs.Scene.SphereRoots
import RayTracer.Proofs.Render.BounceWeights
import RayTracer.Proofs.Render.DepthLimits
import RayTracer.Proofs.CommandLine.Conversions
import RayTracer.Proofs.Scene.DiffuseScattering
import RayTracer.Proofs.Scene.MirrorScattering
import RayTracer.Proofs.Scene.RescaledRays
import RayTracer.Proofs.Scene.FieldOfView
import RayTracer.Proofs.Scene.SphereShadows
import RayTracer.Proofs.Render.Roulette
import RayTracer.Proofs.Description.Validity
import RayTracer.Proofs.Description.UnknownMembers
import RayTracer.Proofs.Random.Balance
import RayTracer.Proofs.Random.Streams
import RayTracer.Proofs.Render.PixelStreams
import RayTracer.Proofs.Random.ByteStream
import RayTracer.Proofs.Binary.Truncation
import RayTracer.Proofs.Image.WholePhotographs
import RayTracer.Proofs.Scene.Textures
import RayTracer.Proofs.Render.BucketOrder
import RayTracer.Proofs.Image.Exposure
import RayTracer.Proofs.Image.ToneCurves
import RayTracer.Proofs.CommandLine.SampledRuns
import RayTracer.Proofs.Render.PixelAreas
import RayTracer.Proofs.Render.PointLights
import RayTracer.Proofs.Scene.SurfaceCoordinates
import RayTracer.Proofs.Scene.MirrorEvaluation
import RayTracer.Proofs.Exact.RightHandedBases
import RayTracer.Proofs.Scene.SurfaceNormals
import RayTracer.Proofs.Scene.Chessboards
