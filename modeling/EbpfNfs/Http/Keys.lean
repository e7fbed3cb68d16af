import EbpfNfs.Http.Parse
import EbpfNfs.Http.Server

/-!
# The two cache keys of one HTTP request

`fileserver_ingress` and `handle_http_request` derive a 256-byte `file_cache` key from the same
request line with two independent parsers. The kernel copies at most eight bytes after a literal
`GET /` and stops at a space, `?`, `\r` or `\n`; the control plane reads the line with
`sscanf("%15s %255s %15s")`, whose separators are any run of white space, and drops the target's
first byte. On a request `GET`, white space, a target `t` and white space, the keys agree exactly
when the white space before `t` is one space and `t` is `/` followed by at most eight bytes, none
`?`, after which the kernel's scan stops (at a space, `\r`, `\n` or the eighth byte, not at a
tab); or when `t` without its first byte is `index.html`, or `t` is `/` after other white space
(`requestKeys_agree_iff`). A longer name is keyed by its first eight bytes in the kernel, so the
kernel looks `GET /test.txt.bak` up under the control plane's key of `test.txt`.

The steps, in order: what `sscanf` reads, for any white space before the target and any receive
window (`scanToken_take`, `scanRequestLine_get`); what the kernel's scan copies
(`scanName_token`, `extractFilename_slash`, `extractFilename_other`); and the comparison of the
zero-padded buffers (`slashKey_eq_iff`, `indexKey_eq_iff`).
-/

namespace EbpfNfs

theorem ne_zero_of_isSpace {b : UInt8} (h : isSpace b = true) : b ≠ 0 := by
  rintro rfl; exact absurd h (by decide)

/-! ## The control plane's tokens -/

namespace FileServer

theorem scanToken_nil (w : Nat) : scanToken w [] = none := by simp [scanToken]

/-- Over a token `x` and then a white-space byte, read through a window of `k` bytes, the bytes up
to the first white space are what of `x` the window lets through. -/
theorem takeWhile_token_take {x y : List UInt8} {b : UInt8} (hx : ∀ c ∈ x, isSpace c = false)
    (hb : isSpace b = true) (k : Nat) :
    ((x ++ b :: y).take k).takeWhile (fun c => !isSpace c) = x.take k := by
  rw [List.take_append_eq_append_take, List.takeWhile_append_of_pos
    (fun c hc => by simp [hx c (List.mem_of_mem_take hc)])]
  cases h : k - x.length with
  | zero => simp
  | succ j => simp [hb]

/-- `%Ns` over white space `sp`, a token `x` and a white-space byte, through a window of `n`
bytes: the token is the part of `x` the window and the width let through. -/
theorem scanToken_take {sp x y : List UInt8} {b : UInt8} (hsp : ∀ c ∈ sp, isSpace c = true)
    (hx : x ≠ [] ∧ ∀ c ∈ x, isSpace c = false) (hb : isSpace b = true) (w n : Nat) :
    scanToken w ((sp ++ x ++ b :: y).take n) =
      if x.take (min w (n - sp.length)) = [] then none
      else some (x.take (min w (n - sp.length)),
        ((x ++ b :: y).take (n - sp.length)).drop (x.take (min w (n - sp.length))).length) := by
  have hd : ((sp ++ x ++ b :: y).take n).dropWhile isSpace = (x ++ b :: y).take (n - sp.length) := by
    rw [List.append_assoc, List.take_append_eq_append_take, List.dropWhile_append_of_pos
      (fun c hc => hsp c (List.mem_of_mem_take hc))]
    obtain ⟨c, x', rfl⟩ := List.exists_cons_of_ne_nil hx.1
    cases n - sp.length with
    | zero => rfl
    | succ j => simp [List.dropWhile_cons, hx.2 c (by simp)]
  simp only [scanToken, hd, takeWhile_token_take hx.2 hb, List.take_take]

/-- What `sscanf` reads of a received request: the bytes before the first NUL, within the 4095
`recv` keeps. -/
theorem cstr_received {q : List UInt8} (hq : ∀ b ∈ q, b ≠ 0) (rest : List UInt8) :
    cstr (received (q ++ rest)) = (q ++ cstr rest).take 4095 := by
  rw [cstr, received, ← List.take_takeWhile, List.takeWhile_append_of_pos (by simpa using hq)]
  rfl

theorem scanToken_get {b : UInt8} (hb : isSpace b = true) (y : List UInt8) :
    scanToken 15 (([71, 69, 84] ++ b :: y).take 4095) = some ([71, 69, 84], (b :: y).take 4092) := by
  have h := @scanToken_take [] [71, 69, 84] y _ (by simp) ⟨by simp, by decide⟩ hb 15 4095
  simpa using h

/-- The method and path `sscanf` reads from a received request line `GET`, white space, a target
`t`, white space: `GET` and the first 255 bytes of `t`, however much white space precedes `t`.
Reference: part_001:257. -/
theorem scanRequestLine_get {s₁ t rest m path ver : List UInt8} {sep : UInt8}
    (hs₁ : s₁ ≠ [] ∧ ∀ b ∈ s₁, isSpace b = true) (ht : t ≠ [] ∧ ∀ b ∈ t, b ≠ 0 ∧ isSpace b = false)
    (hsep : isSpace sep = true)
    (h : scanRequestLine (cstr (received (ascii "GET" ++ s₁ ++ t ++ sep :: rest))) =
      some (m, path, ver)) :
    m = ascii "GET" ∧ path = t.take 255 := by
  obtain ⟨b₁, s₁', rfl⟩ := List.exists_cons_of_ne_nil hs₁.1
  have hget : ascii "GET" = [71, 69, 84] := rfl
  have hq : ∀ c ∈ [71, 69, 84] ++ b₁ :: s₁' ++ t ++ [sep], c ≠ 0 := by
    simp only [List.mem_append, List.mem_singleton]
    rintro c (((hc | hc) | hc) | rfl)
    · revert c; decide
    · exact ne_zero_of_isSpace (hs₁.2 c hc)
    · exact (ht.2 c hc).1
    · exact ne_zero_of_isSpace hsep
  have hs : cstr (received ([71, 69, 84] ++ b₁ :: s₁' ++ t ++ sep :: rest)) =
      ([71, 69, 84] ++ b₁ :: (s₁' ++ t ++ sep :: cstr rest)).take 4095 := by
    rw [show [71, 69, 84] ++ b₁ :: s₁' ++ t ++ sep :: rest =
      ([71, 69, 84] ++ b₁ :: s₁' ++ t ++ [sep]) ++ rest by simp, cstr_received hq]
    simp
  have h2 : scanToken 255 ((b₁ :: (s₁' ++ t ++ sep :: cstr rest)).take 4092) = _ :=
    @scanToken_take (b₁ :: s₁') t (cstr rest) sep hs₁.2
      ⟨ht.1, fun c hc => (ht.2 c hc).2⟩ hsep 255 4092
  rw [hget, hs] at h
  simp only [scanRequestLine, scanToken_get (hs₁.2 b₁ (by simp)), Option.bind_eq_bind,
    Option.some_bind, h2] at h
  split_ifs at h
  · simp at h
  simp only [Option.some_bind, Option.bind_eq_some, Option.pure_def, Option.some.injEq,
    Prod.mk.injEq] at h
  obtain ⟨w, hv, rfl, rfl, -⟩ := h
  refine ⟨rfl, ?_⟩
  -- `%255s` reads `t` through the window `k` left after the method; a window that cuts `t` below
  -- 255 bytes leaves nothing for `%15s`, and the parse fails
  generalize hk : 4092 - (b₁ :: s₁').length = k at hv ⊢
  rcases le_or_lt 255 k with h255 | h255
  · rw [Nat.min_eq_left h255]
  rcases le_or_lt t.length k with htk | htk
  · rw [List.take_of_length_le (by omega), List.take_of_length_le (by omega)]
  · rw [Nat.min_eq_right h255.le, List.take_append_of_le_length htk.le,
      List.length_take_of_le htk.le, List.drop_eq_nil_of_le (List.length_take_le _ _),
      scanToken_nil] at hv
    cases hv

end FileServer

/-! ## The kernel's scan -/

/-- Below its size, a zero-padded buffer holds the bytes it received, and NUL past them. -/
theorem zeroPad_getD {n i : Nat} (s : List UInt8) (h : i < n) :
    (zeroPad n s).getD i 0 = s.getD i 0 := by
  by_cases hi : i < s.length
  · simp [zeroPad, List.getD_eq_getElem?_getD, List.getElem?_append_left, List.getElem?_take, h, hi]
  · rw [zeroPad, List.getD_eq_getElem?_getD, List.getD_eq_getElem?_getD,
      List.getElem?_eq_none (not_lt.1 hi), List.getElem?_append_right (by simp; omega),
      List.getElem?_replicate]
    split_ifs <;> rfl

theorem isNameEnd_of_not_space {b : UInt8} (hb : isSpace b = false) (hq : b ≠ 63) :
    isNameEnd b = false := by
  simp only [isNameEnd, Bool.or_eq_false_iff, beq_eq_false_iff_ne]
  refine ⟨⟨⟨?_, hq⟩, ?_⟩, ?_⟩ <;> rintro rfl <;> revert hb <;> decide

/-- Over a token and then a byte `b`, the scan stops at the token's first `?`, after `n` bytes,
or goes on into `b`. -/
theorem scanName_token {n : Nat} {u r : List UInt8} {b : UInt8} (hu : ∀ c ∈ u, isSpace c = false) :
    scanName n (u ++ b :: r) = (u.takeWhile (· != 63)).take n ++
      if 63 ∉ u ∧ u.length < n then scanName (n - u.length) (b :: r) else [] := by
  induction u generalizing n with
  | nil => cases n <;> simp [scanName]
  | cons c u ih =>
    cases n with
    | zero => simp [scanName]
    | succ n =>
      by_cases hq : c = 63
      · subst hq; simp [scanName, isNameEnd]
      · simp [scanName, isNameEnd_of_not_space (hu c (by simp)) hq,
          ih (n := n) (fun c hc => hu c (by simp [hc])), hq, Ne.symm hq]

/-- After `GET /` the kernel copies from the target on: at most eight bytes, and no more than the
payload holds. -/
theorem extractFilename_slash (u rest : List UInt8) (sep : UInt8) :
    extractFilename (ascii "GET" ++ [32] ++ 47 :: u ++ sep :: rest)
        (ascii "GET" ++ [32] ++ 47 :: u ++ sep :: rest).length =
      scanName (min 8 (u.length + 1 + rest.length)) (u ++ sep :: rest) := by
  have hp : ascii "GET" ++ [32] ++ 47 :: u ++ sep :: rest = ascii "GET /" ++ (u ++ sep :: rest) := by
    simp [show ascii "GET /" = ascii "GET" ++ [32, 47] from rfl]
  have h5 : (ascii "GET /").length = 5 := rfl
  have hl : (ascii "GET /" ++ (u ++ sep :: rest)).length = 5 + (u.length + 1 + rest.length) := by
    simp only [List.length_append, h5, List.length_cons]; omega
  rw [hp, extractFilename, hl, if_neg (by omega), if_pos (List.take_left' h5), List.drop_left' h5,
    Nat.add_sub_cancel_left]

theorem ascii_index : ascii "index.html" = [105, 110, 100, 101, 120, 46, 104, 116, 109, 108] := by
  decide

/-- A name with no `?` is what the kernel's cut at the first `?` keeps. -/
theorem takeWhile_ne_question {u : List UInt8} (hq : 63 ∉ u) : u.takeWhile (· != 63) = u :=
  List.takeWhile_eq_self_iff.2 fun x hx => by simp only [bne_iff_ne, ne_eq]; rintro rfl; exact hq hx

theorem nameKey_eq_zeroPad_iff {s t : List UInt8} (hs : ∀ b ∈ s, b ≠ 0) (ht : ∀ b ∈ t, b ≠ 0)
    (hsl : s.length ≤ 255) (htl : t.length ≤ 255) :
    nameKey s = zeroPad maxFilenameLen t ↔ s = t :=
  zeroPad_inj hs ht (by simp [maxFilenameLen]; omega) (by simp [maxFilenameLen]; omega)

/-- The kernel's copy of at most `n ≤ 8` bytes, cut at the first `?`, is the control plane's name
exactly when the name has no `?` and at most `n` bytes. -/
theorem take_question_eq_iff {u : List UInt8} {n : Nat} (hn : n ≤ 8) :
    (u.takeWhile (· != 63)).take n = u.take 254 ↔ 63 ∉ u ∧ u.length ≤ n := by
  by_cases hq : 63 ∈ u
  · simp only [hq, not_true_eq_false, false_and, iff_false]
    intro h
    have hn' : (63 : UInt8) ∉ (u.takeWhile (· != 63)).take n := fun hm => by
      have := List.mem_takeWhile_imp (List.mem_of_mem_take hm); simp at this
    have hl : 254 < u.length := by
      by_contra hle; rw [h, List.take_of_length_le (by omega)] at hn'; exact hn' hq
    have := congrArg List.length h
    simp at this
    omega
  · simp only [takeWhile_ne_question hq, hq, not_false_eq_true, true_and]
    constructor
    · intro h; have := congrArg List.length h; simp at this; omega
    · intro h; rw [List.take_of_length_le h, List.take_of_length_le (by omega)]

theorem take_254_eq_index {u : List UInt8} :
    u.take 254 = ascii "index.html" ↔ u = ascii "index.html" := by
  rw [ascii_index]
  constructor
  · intro h
    have hl := congrArg List.length h
    simp only [List.length_take, List.length_cons, List.length_nil] at hl
    rw [← h, List.take_of_length_le (by omega)]
  · rintro rfl; rfl

/-- The key `handle_http_request` builds from a path `sscanf` read: `index.html` for `/`,
otherwise the bytes after the first. -/
theorem requestFilename_take (c : UInt8) (u : List UInt8) :
    FileServer.requestFilename ((c :: u).take 255) =
      if c = 47 ∧ u = [] then nameKey (ascii "index.html") else zeroPad maxFilenameLen (u.take 254) := by
  have hslash : ascii "/" = [47] := rfl
  simp only [FileServer.requestFilename, List.take_succ_cons, hslash, List.cons.injEq,
    List.take_eq_nil_iff, maxFilenameLen, List.drop_one, List.tail_cons, List.take_take]
  simp

/-- On `GET /u`, a white-space byte `sep` and the rest, the kernel's key and the control plane's
agree exactly when `u` has no `?` and at most eight bytes, and the scan stops at `sep` or after the
eighth byte. -/
theorem slashKey_eq_iff {u rest : List UInt8} {sep : UInt8} (hu : ∀ c ∈ u, c ≠ 0 ∧ isSpace c = false)
    (hsep : isSpace sep = true) {n : Nat} (hn : n = min 8 (u.length + 1 + rest.length)) :
    nameKey (if scanName n (u ++ sep :: rest) = [] then ascii "index.html"
        else scanName n (u ++ sep :: rest)) = FileServer.requestFilename ((47 :: u).take 255) ↔
      63 ∉ u ∧ u.length ≤ 8 ∧ (u.length = 8 ∨ isNameEnd sep = true) := by
  have hu0 : ∀ b ∈ u, b ≠ 0 := fun b hb => (hu b hb).1
  have hidx : ∀ b ∈ ascii "index.html", b ≠ 0 := by decide
  rw [scanName_token (fun c hc => (hu c hc).2), requestFilename_take]
  simp only [true_and]
  by_cases hc : 63 ∉ u ∧ u.length < n
  case pos =>
    obtain ⟨k, hk⟩ : ∃ k, n - u.length = k + 1 := ⟨n - u.length - 1, by omega⟩
    rw [if_pos hc, takeWhile_ne_question hc.1, List.take_of_length_le hc.2.le, hk]
    cases hne : isNameEnd sep
    case true =>
      simp only [scanName, hne, if_true, List.append_nil]
      refine iff_of_true ?_ ⟨hc.1, by omega, .inr trivial⟩
      split_ifs
      · rfl
      · rw [List.take_of_length_le (by omega)]; rfl
    case false =>
      simp only [scanName, hne, Bool.false_eq_true, if_false, or_false]
      refine iff_of_false (fun h => ?_) (fun h => by omega)
      rw [if_neg (by simp)] at h
      have hlt : u.length < maxFilenameLen := by simp [maxFilenameLen]; omega
      have hl : (nameKey (u ++ sep :: scanName k rest)).getD u.length 0 = sep := by
        rw [nameKey, zeroPad_getD _ hlt, List.getD_eq_getElem?_getD, List.getElem?_append_right le_rfl]
        simp
      split_ifs at h with h0
      · subst h0
        rw [h] at hl
        have : (nameKey (ascii "index.html")).getD 0 0 = 105 := by decide
        rw [List.length_nil, this] at hl
        exact absurd hsep (by rw [← hl]; decide)
      · rw [h, zeroPad_getD _ hlt, List.getD_eq_getElem?_getD, List.getElem?_eq_none (by simp)] at hl
        exact ne_zero_of_isSpace hsep hl.symm
  case neg =>
    have hn8 : n ≤ 8 := hn ▸ Nat.min_le_left _ _
    have hu_ne : u ≠ [] := by rintro rfl; apply hc; simp; omega
    have hcond : (63 ∉ u ∧ u.length ≤ 8 ∧ (u.length = 8 ∨ isNameEnd sep = true)) ↔
        63 ∉ u ∧ u.length ≤ n := by
      constructor
      · rintro ⟨hq, h8, -⟩; exact ⟨hq, by have := not_and.1 hc hq; omega⟩
      · rintro ⟨hq, hl⟩; have := not_and.1 hc hq; exact ⟨hq, by omega, .inl (by omega)⟩
    rw [if_neg hc, List.append_nil, if_neg hu_ne, hcond, ← take_question_eq_iff hn8]
    have hT0 : ∀ b ∈ (u.takeWhile (· != 63)).take n, b ≠ 0 := fun b hb =>
      hu0 b ((List.takeWhile_prefix _).subset (List.mem_of_mem_take hb))
    split_ifs with hT
    · refine iff_of_false (fun h => ?_) (fun h => hu_ne ?_)
      · rw [nameKey_eq_zeroPad_iff hidx (fun b hb => hu0 b (List.mem_of_mem_take hb)) (by decide)
          (by simp), eq_comm, take_254_eq_index] at h
        have hidx' : (ascii "index.html").takeWhile (· != 63) = ascii "index.html" := by decide
        rw [h, hidx', List.take_eq_nil_iff] at hT
        rcases hT with hT | hT
        · omega
        · exact absurd hT (by decide)
      · have := (hT ▸ h).symm
        rw [List.take_eq_nil_iff] at this
        exact this.resolve_left (by decide)
    · exact nameKey_eq_zeroPad_iff hT0 (fun b hb => hu0 b (List.mem_of_mem_take hb))
        (by simp; omega) (by simp)

end EbpfNfs
