import A2aGo.Protocol.Types
import A2aGo.Json.Encoding
import A2aGo.Protocol.SecuritySchemes
import A2aGo.Protocol.SchemesRoundTrip
import A2aGo.TaskUpdate.Manager
import A2aGo.TaskUpdate.StatusLog
import A2aGo.EventQueue.Machine
import A2aGo.EventQueue.Moves
import A2aGo.EventQueue.Exclusion
import A2aGo.EventQueue.Delivery
import A2aGo.EventQueue.Shutdown
import A2aGo.EventQueue.Safety
import A2aGo.EventQueue.Closing
import A2aGo.EventQueue.Permit
import A2aGo.EventQueue.Drain
import A2aGo.EventQueue.CloseLaw
import A2aGo.EventQueue.Cancel
import A2aGo.QueueManager.Registry
import A2aGo.QueueManager.Machine
import A2aGo.QueueManager.Linearizable
import A2aGo.Handler.Server
import A2aGo.Handler.SendMessage
import A2aGo.Handler.Order
import A2aGo.Handler.Cancel
import A2aGo.Handler.Capacity
import A2aGo.Client.Factory
import A2aGo.Client.Credentials
import A2aGo.Client.AgentCard
import A2aGo.TaskStore.Validator
import A2aGo.TaskStore.Walk
import A2aGo.TaskStore.MetaGraph
import A2aGo.TaskStore.Termination
import A2aGo.TaskStore.GoHeap
import A2aGo.TaskStore.Mem
import A2aGo.TaskStore.Isolation
