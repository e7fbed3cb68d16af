import EbpfNfs.Bytes

/-!
# The link and network headers

Both TC programs, and both XDP programs, start the same walk: an Ethernet header must fit, its
type must be IPv4, an IPv4 header of the fixed 20 bytes must fit, and its protocol byte selects
the transport. The transport header then sits `4 * ip->ihl` bytes after the start of the IPv4
header. The walk never reads the version nibble, never checks `ihl ≥ 5`, and never looks at the
fragment offset or the total-length field: every length it uses is measured against
`skb->data_end`.
-/

namespace EbpfNfs

/-- `sizeof(struct ethhdr)`. -/
def ethHlen : Nat := 14

/-- `sizeof(struct iphdr)`, the IPv4 header without options. -/
def ipHlen : Nat := 20

/-- `ETH_P_IP`, the Ethernet type of IPv4 (fileserver.bpf.c:17). -/
def ethPIp : Nat := 0x0800

/-- `IPPROTO_TCP`. -/
def ipprotoTcp : Nat := 6

/-- `IPPROTO_UDP`. -/
def ipprotoUdp : Nat := 17

/-- `TC_ACT_OK`, the verdict both TC programs return on every path (fileserver.bpf.c:12). -/
def tcActOk : Nat := 0

/-- `XDP_PASS`, the verdict both XDP programs return on every path. -/
def xdpPass : Nat := 2

/-- `ip->ihl`, the low nibble of the IPv4 header's first byte in the little-endian bitfield layout
of `struct iphdr`. -/
def ihl (f : List UInt8) : Nat := byteAt f ethHlen % 16

/-- `ip->protocol`. -/
def ipProtocol (f : List UInt8) : Nat := byteAt f (ethHlen + 9)

/-- The fragment offset and flags word of the IPv4 header, which no program reads. -/
def ipFragOff (f : List UInt8) : Nat := be16 f (ethHlen + 6) % 0x2000

/-- `(void *)ip + (ip->ihl * 4)`: where the walk takes the transport header to start. -/
def transportOff (f : List UInt8) : Nat := ethHlen + ihl f * 4

/-- `ip->saddr` as the programs copy it into keys and events. -/
def ipSaddr (f : List UInt8) : Nat := le32 f (ethHlen + 12)

/-- The checks every walk makes before it looks at the transport: the Ethernet header fits, the
type is IPv4, and a 20-byte IPv4 header fits. Reference: fileserver.bpf.c:164-173,
test_nfs_server.sh:571-580, fileserver.bpf.c:337-346. -/
def ipv4Frame (f : List UInt8) : Bool :=
  ethHlen ≤ f.length && be16 f 12 == ethPIp && ethHlen + ipHlen ≤ f.length

end EbpfNfs
