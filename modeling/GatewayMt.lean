import GatewayMt.Bytes
import GatewayMt.Unicode
import GatewayMt.Backup.Pipe
import GatewayMt.Backup.Delivery
import GatewayMt.Backup.Progress
import GatewayMt.Time.Calendar
import GatewayMt.Time.Format
import GatewayMt.Path
import GatewayMt.Backup.Key
import GatewayMt.Middleware.FlusherDelegator
import GatewayMt.Xml
import GatewayMt.Linksharing.BucketCors
import GatewayMt.Cmd.Usage
import GatewayMt.Cmd.Run
import GatewayMt.Cmd.Authservice
