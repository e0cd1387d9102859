import ZookeeperClient.Client.Creates
import ZookeeperClient.Client.Flush
import ZookeeperClient.Ruby.NoHandler
import ZookeeperClient.Ruby.DispatchThread
import ZookeeperClient.Ruby.SessionEvents
import ZookeeperClient.Ext.PipeDeadlock
import ZookeeperClient.Ext.HandleUse
import ZookeeperClient.Transition.Places
import ZookeeperClient.Client.Completions
import ZookeeperClient.Client.Reopen
import ZookeeperClient.Client.Watches
import ZookeeperClient.Lifecycle.Session
import ZookeeperClient.Lifecycle.Order
import ZookeeperClient.Lifecycle.Faults
import ZookeeperClient.Handle.InterpreterLock
import ZookeeperClient.Handle.FailedReopen
import ZookeeperClient.Lifecycle.Drain
import ZookeeperClient.Lifecycle.EventMachine
import ZookeeperClient.Operations.Rejected
import ZookeeperClient.Operations.Agree
import ZookeeperClient.Ext.EventList
import ZookeeperClient.Ruby.Consumers
import ZookeeperClient.Marshal.Reads
import ZookeeperClient.Ruby.Logging
import ZookeeperClient.Marshal.Integers
import ZookeeperClient.Marshal.Strings
import ZookeeperClient.Marshal.DataSize
import ZookeeperClient.Generator.Calls
import ZookeeperClient.Handle.Leaks
import ZookeeperClient.Lifecycle.Locks
import ZookeeperClient.Lifecycle.EventMachineOrder
import ZookeeperClient.Java.Sessions
import ZookeeperClient.Ext.Progress
import ZookeeperClient.Lifecycle.Progress
import ZookeeperClient.Lifecycle.Inquiries
import ZookeeperClient.Java.Order
import ZookeeperClient.Ruby.CallbackObjects
