import GrpcCore.Iomgr.TcpClient.Completion
import GrpcCore.Iomgr.FdPosixTest.Total
import GrpcCore.Json.Output
import GrpcCore.Util.ReconnectServer.Timestamps
