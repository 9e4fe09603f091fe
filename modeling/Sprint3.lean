import Sprint3.Lib.Bits
import Sprint3.HitTimeout
import Sprint3.BufferCopies
import Sprint3.DataProcessor
import Sprint3.Arrival
import Sprint3.Batching
import Sprint3.Intake
import Sprint3.Lib.Ledger
import Sprint3.Lib.Text
import Sprint3.AcqTime
import Sprint3.GradePattern
import Sprint3.Energy
import Sprint3.Delivery
import Sprint3.FrameTimes
import Sprint3.Loop
import Sprint3.Rotation
import Sprint3.RunHistory
import Sprint3.Shutdown
import Sprint3.SpeciesFiles
import Sprint3.Lib.Lanes
import Sprint3.PxConfig
import Sprint3.CommandStream
import Sprint3.AcquisitionBegin
import Sprint3.FrameReports
import Sprint3.ReadResult
import Sprint3.FileHeader
import Sprint3.Pipeline
import Sprint3.Udp
import Sprint3.Restart
import Sprint3.PixelFormats
import Sprint3.BufferBounds
import Sprint3.Status
import Sprint3.Log
import Sprint3.Waiting
