import EdgeRuntime.Supervisor.Loop
import EdgeRuntime.Supervisor.Termination
import EdgeRuntime.Supervisor.System
import EdgeRuntime.Supervisor.Timing
import EdgeRuntime.Supervisor.HeapLimit
import EdgeRuntime.Pool.WorkerPool
import EdgeRuntime.Pool.Create
import EdgeRuntime.Pool.BootOutcome
import EdgeRuntime.Pool.Routing
import EdgeRuntime.Worker.Intake
import EdgeRuntime.Worker.CreateWorker
import EdgeRuntime.Certs.RootCertStore
