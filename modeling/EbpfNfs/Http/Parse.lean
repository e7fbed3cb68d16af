import EbpfNfs.Frame

/-!
# What `fileserver_ingress` reads from a frame

The header walk of `fileserver_ingress` down to the HTTP method (`httpFrame`), the method test
`parse_http_method`, and the bounded filename scan `extract_filename` with its default
(`ingressFilename`). The scan copies at most eight bytes after `GET /` and stops at a space, `?`,
`\r` or `\n`; every other request gets the key of `index.html`.
-/

namespace EbpfNfs

/-- `sizeof(struct tcphdr)`. -/
def tcpHlen : Nat := 20

/-- `enum http_method` (part_000:11). -/
def httpUnknown : Nat := 0
/-- `HTTP_GET`. -/
def httpGet : Nat := 1
/-- `HTTP_POST`. -/
def httpPost : Nat := 2
/-- `HTTP_PUT`. -/
def httpPut : Nat := 3
/-- `HTTP_DELETE`. -/
def httpDelete : Nat := 4

/-- `parse_http_method(payload, data_end, len)`: `p` is the payload up to `data_end` and `len`
the 16-bit `payload_len`. Reference: fileserver.bpf.c:58. -/
def parseHttpMethod (p : List UInt8) (len : Nat) : Nat :=
  if p.length < 3 ∨ len < 3 then httpUnknown
  else if p.take 3 = ascii "GET" then httpGet
  else if 4 ≤ p.length ∧ 4 ≤ len ∧ p.take 4 = ascii "POST" then httpPost
  else if p.take 3 = ascii "PUT" then httpPut
  else if 6 ≤ p.length ∧ 6 ≤ len ∧ p.take 6 = ascii "DELETE" then httpDelete
  else httpUnknown

/-- `tcp->doff`, the high nibble of byte 12 of the TCP header at `t`. -/
def tcpDoff (f : List UInt8) (t : Nat) : Nat := byteAt f (t + 12) / 16

/-- What `fileserver_ingress` has read from a frame when it passes the method test. -/
structure HttpFrame where
  /-- The bytes from `http_payload` to `data_end`. -/
  payload : List UInt8
  /-- `payload_len`, a `__u16`. -/
  payloadLen : Nat
  method : Nat
  clientIp : Nat
  clientPort : Nat
  deriving DecidableEq, Repr

/-- The walk of `fileserver_ingress` from `skb->data` to the method test; `none` is every early
`return TC_ACT_OK`. Reference: fileserver.bpf.c:163-201. -/
def httpFrame (f : List UInt8) : Option HttpFrame :=
  if !ipv4Frame f then none
  else if ipProtocol f ≠ ipprotoTcp then none
  else if f.length < transportOff f + tcpHlen then none
  else if be16 f (transportOff f + 2) ≠ 80 ∧ be16 f (transportOff f + 2) ≠ 8080 then none
  else
    let p := transportOff f + tcpDoff f (transportOff f) * 4
    if f.length ≤ p then none
    else if (f.length - p) % 2 ^ 16 < 4 then none
    else if parseHttpMethod (f.drop p) ((f.length - p) % 2 ^ 16) = httpUnknown then none
    else some
      { payload := f.drop p
        payloadLen := (f.length - p) % 2 ^ 16
        method := parseHttpMethod (f.drop p) ((f.length - p) % 2 ^ 16)
        clientIp := ipSaddr f
        clientPort := le16 f (transportOff f) }

/-- The bytes that end a name in `extract_filename`: space, `?`, `\r`, `\n`. -/
def isNameEnd (b : UInt8) : Bool := b == 32 || b == 63 || b == 13 || b == 10

/-- The copy loop of `extract_filename`: at most `n` bytes, up to a name end or the end of the
frame. -/
def scanName : Nat → List UInt8 → List UInt8
  | 0, _ => []
  | _, [] => []
  | n + 1, b :: bs => if isNameEnd b then [] else b :: scanName n bs

/-- `extract_filename(data, data_end, len, filename)`: the bytes it writes before the
terminating NUL. The loop runs `i` from 5 while `i < 13`, `i < len` and `j < 8`, and `j = i - 5`
throughout, so it makes at most `min 8 (len - 5)` copies. Reference: fileserver.bpf.c:88. -/
def extractFilename (p : List UInt8) (len : Nat) : List UInt8 :=
  if len < 5 ∨ p.length < 5 then []
  else if p.take 5 = ascii "GET /" then scanName (min 8 (len - 5)) (p.drop 5)
  else []

/-- The 256-byte key `fileserver_ingress` looks up: the zeroed `filename` buffer after
`extract_filename`, or after the copy of `"index.html"` when the scan wrote nothing.
Reference: fileserver.bpf.c:158, fileserver.bpf.c:204-208. -/
def ingressFilename (p : List UInt8) (len : Nat) : List UInt8 :=
  nameKey (if extractFilename p len = [] then ascii "index.html" else extractFilename p len)

/-- `check_file_exists`: the name begins with `ind`, `sta` or `tes`.
Reference: fileserver.bpf.c:121. -/
def checkFileExists (filename : List UInt8) : Bool :=
  filename.take 3 == ascii "ind" || filename.take 3 == ascii "sta" ||
    filename.take 3 == ascii "tes"

end EbpfNfs
