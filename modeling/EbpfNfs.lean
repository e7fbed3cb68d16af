import EbpfNfs.Http.Keys
import EbpfNfs.Nfs.Rpc
import EbpfNfs.Servers
import EbpfNfs.Freshness
import EbpfNfs.Clients
import EbpfNfs.Recognition
import EbpfNfs.Serving
import EbpfNfs.Replies
import EbpfNfs.Nfs.Handles
import EbpfNfs.Hits
import EbpfNfs.Nfs.Unserved
import EbpfNfs.Nfs.Service
import EbpfNfs.Http.Response
import EbpfNfs.Http.FastPath
import EbpfNfs.Retention
