import VisionApi.Audit.Flush
import VisionApi.Audit.Columns
import VisionApi.Preprocess.Geometry
import VisionApi.Preprocess.Crop
import VisionApi.Preprocess.Pipeline
import VisionApi.Experiments.Routing
import VisionApi.Monitoring.Cardinality
import VisionApi.Partitions.Maintenance
import VisionApi.Training.Evaluation
import VisionApi.Models.Layout
import VisionApi.Models.Provenance
import VisionApi.Models.Resolution
import VisionApi.Inference.Batching
import VisionApi.Inference.Transparency
import VisionApi.Publish.Prepare
import VisionApi.Similarity.Crash
import VisionApi.Similarity.Rendering
import VisionApi.Similarity.Search
import VisionApi.RateLimit.SlidingLog
import VisionApi.RateLimit.Cluster
import VisionApi.Batch.Agreement
import VisionApi.Training.Resumption
import VisionApi.Batch.Status
import VisionApi.Detect.Decode
import VisionApi.Experiments.Shares
import VisionApi.Validation.Regression
import VisionApi.Validation.Analysis
import VisionApi.RateLimit.RetryAfter
import VisionApi.Detect.Selection
import VisionApi.Similarity.Bounds
import VisionApi.Evaluation.Calibration
import VisionApi.Optimisation.Benchmark
import VisionApi.Validation.Drift
import VisionApi.Training.Mixing
import VisionApi.Monitoring.Counting
import VisionApi.Training.ParameterGroups
import VisionApi.Datasets.Download
import VisionApi.Datasets.Restructure
import VisionApi.Models.Cpus
import VisionApi.Docs.Sync
import VisionApi.Training.Cadence
import VisionApi.Training.Stability
import VisionApi.Training.Checkpoints
import VisionApi.Access.Gate
import VisionApi.Training.Losses
import VisionApi.App.Health
import VisionApi.Partitions.Conservation
import VisionApi.Validation.DriftReport
import VisionApi.Datasets.TinyImageNet
import VisionApi.Optimisation.Quantize
import VisionApi.Validation.Releases
