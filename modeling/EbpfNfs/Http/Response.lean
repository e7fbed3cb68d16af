import Mathlib.Data.Nat.Digits
import EbpfNfs.Http.Server

/-!
# The bytes the file server sends

`send_http_response` formats a status line and three header lines with `snprintf` into the
512-byte `header`, sends the `header_len` bytes `snprintf` reports, and then `body_len` bytes of
`body` (`sendHttpResponse`). `serve_file` and `handle_http_request` call it with a fixed text and
a length written next to it on every error path, and with the bytes `read` returned on success
(`serveFileReply`, `handleHttpReply`). Only `200`, `404` and `500` have a reason phrase of their
own; `400`, `403` and `405` go out as `Unknown`.

Every request the file server answers gets a response that is `Framed`: a header of at most 133
bytes, so `snprintf` never truncates it and `send` never reads past `header`, announcing the status
`handleHttpRequest` computes and a `Content-Length` that is the number of body bytes sent after it
(`handleHttpReply_framed`); each fixed text is as long as the length passed with it.
-/

namespace EbpfNfs

namespace FileServer

/-! ## `send_http_response` -/

/-- The `status_text` of `send_http_response`'s `switch`. Reference: part_001:120-125. -/
def statusText : Nat → List UInt8
  | 200 => ascii "OK"
  | 404 => ascii "Not Found"
  | 500 => ascii "Internal Server Error"
  | _ => ascii "Unknown"

/-- What `snprintf` formats into `header`: `%d` of the status, `%s` of the two texts, and `%zu` of
the `size_t` body length. Reference: part_001:127-133. -/
def httpHeader (status : Nat) (contentType : List UInt8) (bodyLen : Nat) : List UInt8 :=
  ascii "HTTP/1.1 " ++ ascii (Nat.repr status) ++ ascii " " ++ statusText status ++
    ascii "\r\nContent-Type: " ++ contentType ++
    ascii "\r\nContent-Length: " ++ ascii (Nat.repr (bodyLen % 2 ^ 64)) ++
    ascii "\r\nConnection: close\r\n\r\n"

/-- `send_http_response(client_sock, status_code, content_type, body, body_len)`: the bytes sent,
or `none` where a `send` would read past its buffer, `header` when `snprintf` reports 512 bytes
or more, `body` when it holds fewer than `body_len`. Reference: part_001:114. -/
def sendHttpResponse (status : Nat) (contentType body : List UInt8) (bodyLen : Nat) :
    Option (List UInt8) :=
  if 512 ≤ (httpHeader status contentType bodyLen).length ∨ body.length < bodyLen then none
  else some (httpHeader status contentType bodyLen ++ body.take bodyLen)

theorem statusText_length_le (status : Nat) : (statusText status).length ≤ 21 := by
  unfold statusText; split <;> decide

/-- The fixed parts of the header are 67 bytes. -/
theorem httpHeader_length (status : Nat) (contentType : List UInt8) (bodyLen : Nat) :
    (httpHeader status contentType bodyLen).length = 67 + (Nat.repr status).length +
      (statusText status).length + contentType.length + (Nat.repr (bodyLen % 2 ^ 64)).length := by
  have hl : ("HTTP/1.1 ".length, " ".length, "\r\nContent-Type: ".length,
      "\r\nContent-Length: ".length, "\r\nConnection: close\r\n\r\n".length) = (9, 1, 16, 18, 23) := rfl
  simp only [Prod.mk.injEq] at hl
  simp only [httpHeader, List.length_append, ascii_length]; omega

/-- A three-digit status and a content type of at most 22 bytes give a header of at most 133
bytes: `%zu` of a `size_t` has at most 20 digits. -/
theorem httpHeader_length_le {status : Nat} {contentType : List UInt8} (hs : status < 1000)
    (hc : contentType.length ≤ 22) (bodyLen : Nat) : (httpHeader status contentType bodyLen).length ≤ 133 := by
  have h1 := Nat.repr_length status 3 (by decide) hs
  have h2 := Nat.repr_length (bodyLen % 2 ^ 64) 20 (by decide)
    (lt_of_lt_of_le (Nat.mod_lt _ (by decide)) (by decide))
  have h3 := statusText_length_le status
  rw [httpHeader_length]; omega

/-- With a body as long as `body_len`, the header and the whole body are sent. -/
theorem sendHttpResponse_eq {status : Nat} {contentType : List UInt8} (hs : status < 1000)
    (hc : contentType.length ≤ 22) (body : List UInt8) {bodyLen : Nat} (hb : body.length = bodyLen) :
    sendHttpResponse status contentType body bodyLen =
      some (httpHeader status contentType body.length ++ body) := by
  subst hb
  have := httpHeader_length_le hs hc body.length
  rw [sendHttpResponse, if_neg (by omega), List.take_length]

/-! ## `serve_file` and `handle_http_request` -/

/-- The `content_type` `serve_file` picks with `strstr` on the file name, first match first.
Reference: part_001:191-202. -/
def contentTypeOf (filename : List UInt8) : List UInt8 :=
  let has t := hasInfix (cstr filename) (ascii t)
  if has ".html" || has ".htm" then ascii "text/html"
  else if has ".css" then ascii "text/css"
  else if has ".js" then ascii "application/javascript"
  else if has ".jpg" || has ".jpeg" then ascii "image/jpeg"
  else if has ".png" then ascii "image/png"
  else ascii "text/plain"

theorem contentTypeOf_length_le (filename : List UInt8) : (contentTypeOf filename).length ≤ 22 := by
  unfold contentTypeOf; dsimp only; split_ifs <;> decide

/-- The page `serve_file` sends with a `404`. -/
def notFoundPage : List UInt8 := ascii "<html><body><h1>404 Not Found</h1></body></html>"

/-- `serve_file`: the bytes it sends. `malloc` is taken to succeed, as in `serveFile`.
Reference: part_001:142. -/
def serveFileReply (env : Env) (fs : FileSys) (filename : List UInt8) : Option (List UInt8) :=
  let serverError := sendHttpResponse 500 (ascii "text/plain") (ascii "Internal Server Error") 21
  if hasInfix (cstr filename) (ascii "..") || hasInfix (cstr filename) (ascii "//") then
    sendHttpResponse 403 (ascii "text/plain") (ascii "Forbidden") 9
  else match fs (joinPath env.documentRoot filename) with
    | none => sendHttpResponse 404 (ascii "text/html") notFoundPage notFoundPage.length
    | some f =>
      if !sIsReg f.mode then sendHttpResponse 404 (ascii "text/html") notFoundPage notFoundPage.length
      else if !f.openOk then serverError
      else match f.read f.size with
        | none => serverError
        | some data =>
          if data.length ≠ f.size then serverError
          else sendHttpResponse 200 (contentTypeOf filename) data data.length

/-- `handle_http_request`: the bytes it sends. Reference: part_001:251. -/
def handleHttpReply (env : Env) (fs : FileSys) (request : List UInt8) : Option (List UInt8) :=
  match scanRequestLine (cstr request) with
  | none => sendHttpResponse 400 (ascii "text/plain") (ascii "Bad Request") 11
  | some (method, path, _) =>
    if method = ascii "GET" then serveFileReply env fs (requestFilename path)
    else sendHttpResponse 405 (ascii "text/plain") (ascii "Method Not Allowed") 18

/-! ## Every response is framed -/

/-- A response sent whole: a header of at most 133 bytes, far under the 512 of `header`, that
announces `status` and a `Content-Length` equal to the number of body bytes after it. -/
def Framed (status : Nat) (reply : Option (List UInt8)) : Prop :=
  ∃ contentType body, (httpHeader status contentType body.length).length ≤ 133 ∧
    reply = some (httpHeader status contentType body.length ++ body)

theorem framed_send {status : Nat} (hs : status < 1000) {contentType : List UInt8}
    (hc : contentType.length ≤ 22) (body : List UInt8) {bodyLen : Nat} (hb : body.length = bodyLen) :
    Framed status (sendHttpResponse status contentType body bodyLen) :=
  ⟨contentType, body, httpHeader_length_le hs hc _, sendHttpResponse_eq hs hc body hb⟩

/-- Every response of `serve_file` is framed with the status `serveFile` computes. -/
theorem serveFileReply_framed (env : Env) (fs : FileSys) (filename : List UInt8) (st : Stats) :
    Framed (serveFile env fs filename st).1 (serveFileReply env fs filename) := by
  have h500 : Framed 500 (sendHttpResponse 500 (ascii "text/plain") (ascii "Internal Server Error") 21) :=
    framed_send (by decide) (by decide) _ rfl
  have h404 : Framed 404 (sendHttpResponse 404 (ascii "text/html") notFoundPage notFoundPage.length) :=
    framed_send (by decide) (by decide) _ rfl
  by_cases hn : (hasInfix (cstr filename) (ascii "..") || hasInfix (cstr filename) (ascii "//")) = true
  · simp only [serveFile, serveFileReply, hn, if_true]
    exact framed_send (by decide) (by decide) _ rfl
  simp only [serveFile, serveFileReply, hn, Bool.false_eq_true, if_false]
  rcases fs (joinPath env.documentRoot filename) with _ | f
  · exact h404
  dsimp only
  cases sIsReg f.mode
  · exact h404
  cases f.openOk
  · exact h500
  simp only [Bool.not_true, Bool.false_eq_true, if_false]
  rcases f.read f.size with _ | data
  · exact h500
  dsimp only
  by_cases hl : data.length = f.size
  · rw [if_neg fun h => h hl, if_neg fun h => h hl]
    dsimp only
    exact framed_send (by decide) (contentTypeOf_length_le _) _ rfl
  · simp only [hl, ne_eq, not_false_eq_true, if_true, Bool.not_true, Bool.false_eq_true, if_false]
    exact h500

/-- Every request gets a framed response whose status is the one `handleHttpRequest` computes:
no header is truncated, no `send` reads past its buffer, and the announced `Content-Length` is
the number of body bytes that follow. -/
theorem handleHttpReply_framed (env : Env) (fs : FileSys) (request : List UInt8)
    (m : BpfHash (List UInt8) FileCacheEntry) (st : Stats) :
    Framed (handleHttpRequest env fs request m st).1 (handleHttpReply env fs request) := by
  unfold handleHttpRequest handleHttpReply
  rcases scanRequestLine (cstr request) with _ | ⟨method, path, _⟩ <;> dsimp only
  · exact framed_send (by decide) (by decide) _ rfl
  by_cases hg : method = ascii "GET"
  · rw [if_pos hg, if_pos hg]
    exact serveFileReply_framed env fs _ st
  · rw [if_neg hg, if_neg hg]
    dsimp only
    exact framed_send (by decide) (by decide) _ rfl

end FileServer

end EbpfNfs
