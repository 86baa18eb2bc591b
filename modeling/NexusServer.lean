import NexusServer.Basic
import NexusServer.Session
import NexusServer.ExtendedQuery
import NexusServer.Describe
import NexusServer.Isolation
import NexusServer.ConcurrentResolve
import NexusServer.CursorTable
import NexusServer.ErrorFrame
import NexusServer.Acceptor
import NexusServer.PgLexer
import NexusServer.Rendering
import NexusServer.LockTrace
import NexusServer.Deadlock
import NexusServer.Connection
import NexusServer.Substitution
import NexusServer.Binding
import NexusServer.RenderingContext
