import NexusServer.Basic

/-!
# The fatal error frame

When the catalog connection of an accepted client fails, the accept loop of `main` writes a frame
by hand before it shuts the socket down: the byte E, a zero Int32, the bytes of FATAL, a 0, the
bytes of "Failed to connect to catalog: " followed by the error's text, and two 0 bytes
(`fatalErrorFrame`).

The wire protocol's ErrorResponse grammar is modelled as a decoder (`decodeErrorResponse`): the
type byte E, an Int32 length that counts every byte of the message after the type byte, then
fields, each a one-byte code and a NUL-terminated text, and a final 0 that ends the message. An
encoder of that grammar (`encodeErrorResponse`) round-trips through the decoder for every list
of fields with nonzero codes and NUL-free texts (`decode_encodeErrorResponse`), so the decoder
accepts every well-formed message.

The frame of the code decodes for no error text: its length field is 0
(`fatalErrorFrame_rejected`). Read with the field syntax alone, its body gives two fields of
code F, the text ATAL and the message without its first letter, and neither a severity nor a
message field (`fatalErrorFrame_fields`).
-/

namespace Nexus

/-! ## Bytes -/

/-- `str::as_bytes`: the UTF-8 encoding of a text. -/
def asBytes (s : String) : List UInt8 := s.data.flatMap String.utf8EncodeChar

@[simp] lemma asBytes_append (s t : String) : asBytes (s ++ t) = asBytes s ++ asBytes t := by
  simp only [asBytes, String.data_append, List.flatMap_append]

/-- `BufMut::put_i32`: the four big-endian bytes of a 32-bit integer. -/
def putI32 (n : Int) : List UInt8 :=
  let u := (n % 2 ^ 32).toNat
  [(u / 2 ^ 24 % 256).toUInt8, (u / 2 ^ 16 % 256).toUInt8, (u / 2 ^ 8 % 256).toUInt8,
    (u % 256).toUInt8]

/-- Modelled from the protocol: the Int32 that four big-endian bytes stand for. -/
def getI32 (b₀ b₁ b₂ b₃ : UInt8) : Int :=
  let u : Nat := b₀.toNat * 2 ^ 24 + b₁.toNat * 2 ^ 16 + b₂.toNat * 2 ^ 8 + b₃.toNat
  if u < 2 ^ 31 then (u : Int) else (u : Int) - 2 ^ 32

/-- The bytes `put_i32` writes for a nonnegative integer below 2^32. -/
lemma putI32_eq {n : Int} (h₀ : 0 ≤ n) (h : n < 2 ^ 32) :
    putI32 n = [(n.toNat / 2 ^ 24 % 256).toUInt8, (n.toNat / 2 ^ 16 % 256).toUInt8,
      (n.toNat / 2 ^ 8 % 256).toUInt8, (n.toNat % 256).toUInt8] := by
  have hu : (n % 2 ^ 32).toNat = n.toNat := by omega
  simp only [putI32, hu]

/-- Reading back the bytes of a nonnegative Int32 gives the integer. -/
lemma getI32_bytes {n : Nat} (h : n < 2 ^ 31) :
    getI32 (n / 2 ^ 24 % 256).toUInt8 (n / 2 ^ 16 % 256).toUInt8 (n / 2 ^ 8 % 256).toUInt8
      (n % 256).toUInt8 = n := by
  have hsum : n / 2 ^ 24 % 256 * 2 ^ 24 + n / 2 ^ 16 % 256 * 2 ^ 16 + n / 2 ^ 8 % 256 * 2 ^ 8 +
      n % 256 = n := by omega
  have hb : ∀ k : Nat, k.toUInt8.toNat = k % 256 := fun _ => rfl
  simp only [getI32, hb, Nat.mod_mod, hsum, if_pos h]

/-! ## The ErrorResponse grammar -/

/-- Modelled from the protocol: the fields of an ErrorResponse body, read as a machine over its
bytes. Between fields (`none`) it reads a field code, or the 0 that ends the message and must be
its last byte; inside a field (`some (code, read)`, the text read so far, last byte first) it
reads up to the NUL that ends the text. -/
def readFields : Option (UInt8 × List UInt8) → List UInt8 → Option (List (UInt8 × List UInt8))
  | none, [] => none
  | none, b :: rest => if b = 0 then (if rest = [] then some [] else none)
      else readFields (some (b, [])) rest
  | some _, [] => none
  | some (code, read), b :: rest =>
    if b = 0 then (readFields none rest).map ((code, read.reverse) :: ·)
    else readFields (some (code, b :: read)) rest

/-- Modelled from the protocol: decode one ErrorResponse message that fills the whole buffer. -/
def decodeErrorResponse : List UInt8 → Option (List (UInt8 × List UInt8))
  | t :: b₀ :: b₁ :: b₂ :: b₃ :: body =>
    if t = 'E'.toUInt8 ∧ getI32 b₀ b₁ b₂ b₃ = body.length + 4 then readFields none body else none
  | _ => none

/-- The bytes of one field: its code, its text and the NUL after it. -/
def fieldBytes (f : UInt8 × List UInt8) : List UInt8 := f.1 :: f.2 ++ [0]

/-- Modelled from the protocol: the ErrorResponse message with the given fields. -/
def encodeErrorResponse (fields : List (UInt8 × List UInt8)) : List UInt8 :=
  let body := fields.flatMap fieldBytes ++ [0]
  'E'.toUInt8 :: putI32 (body.length + 4) ++ body

/-- Inside a field, the reader takes the text up to its NUL. -/
lemma readFields_text (code : UInt8) {s : List UInt8} (hs : 0 ∉ s) (read rest : List UInt8) :
    readFields (some (code, read)) (s ++ 0 :: rest) =
      (readFields none rest).map ((code, read.reverse ++ s) :: ·) := by
  induction s generalizing read with
  | nil => simp [readFields]
  | cons b s ih =>
    have hb : b ≠ 0 := fun h => hs (h ▸ List.mem_cons_self b s)
    rw [List.cons_append, readFields, if_neg hb, ih (fun h => hs (List.mem_cons_of_mem b h))]
    simp

/-- The reader gives back every list of fields with nonzero codes and NUL-free texts. -/
lemma readFields_encode {fields : List (UInt8 × List UInt8)}
    (h : ∀ f ∈ fields, f.1 ≠ 0 ∧ 0 ∉ f.2) :
    readFields none (fields.flatMap fieldBytes ++ [0]) = some fields := by
  induction fields with
  | nil => rfl
  | cons f fields ih =>
    obtain ⟨hc, hs⟩ := h f (List.mem_cons_self f fields)
    have ih := ih fun g hg => h g (List.mem_cons_of_mem f hg)
    have hbytes : (f :: fields).flatMap fieldBytes ++ [0] =
        f.1 :: (f.2 ++ 0 :: (fields.flatMap fieldBytes ++ [0])) := by
      simp [fieldBytes]
    rw [hbytes, readFields, if_neg hc, readFields_text f.1 hs, ih]
    rfl

/-- Every message of the grammar decodes to its fields. -/
theorem decode_encodeErrorResponse {fields : List (UInt8 × List UInt8)}
    (h : ∀ f ∈ fields, f.1 ≠ 0 ∧ 0 ∉ f.2)
    (hlen : (fields.flatMap fieldBytes).length + 5 < 2 ^ 31) :
    decodeErrorResponse (encodeErrorResponse fields) = some fields := by
  have hn : (fields.flatMap fieldBytes ++ [0]).length + 4 < 2 ^ 31 := by simpa using hlen
  simp only [encodeErrorResponse]
  generalize hb : fields.flatMap fieldBytes ++ [0] = body at hn
  have hi := getI32_bytes hn
  have ht : ((body.length : Int) + 4).toNat = body.length + 4 := by omega
  rw [putI32_eq (by omega) (by omega), ht]
  simp only [List.cons_append, List.nil_append, decodeErrorResponse, true_and]
  rw [if_pos (by omega), ← hb, readFields_encode h]

/-! ## The frame of the accept loop -/

/-- The frame the accept loop writes when `Catalog::new` fails with the error text `e`, put
together as the code's `BytesMut` calls put it. -/
def fatalErrorFrame (e : String) : List UInt8 :=
  ['E'.toUInt8] ++ putI32 0 ++ asBytes "FATAL" ++ [0] ++
    asBytes ("Failed to connect to catalog: " ++ e) ++ [0] ++ [0]

/-- The frame decodes as no ErrorResponse, whatever the error's text: its length field is 0. -/
theorem fatalErrorFrame_rejected (e : String) : decodeErrorResponse (fatalErrorFrame e) = none := by
  have h0 : getI32 0 0 0 0 = 0 := rfl
  rw [show fatalErrorFrame e = 'E'.toUInt8 :: 0 :: 0 :: 0 :: 0 :: (asBytes "FATAL" ++ [0] ++
    asBytes ("Failed to connect to catalog: " ++ e) ++ [0] ++ [0]) from rfl, decodeErrorResponse,
    if_neg]
  rintro ⟨-, h⟩
  rw [h0] at h
  omega

/-- Read with the field syntax alone, the body of the frame gives two fields of code F: ATAL and
the message without its first letter. -/
theorem fatalErrorFrame_fields {e : String} (he : 0 ∉ asBytes e) :
    readFields none ((fatalErrorFrame e).drop 5) =
      some [('F'.toUInt8, asBytes "ATAL"),
        ('F'.toUInt8, asBytes "ailed to connect to catalog: " ++ asBytes e)] := by
  have hm : 0 ∉ asBytes "ailed to connect to catalog: " ++ asBytes e := by
    rw [List.mem_append, not_or]
    exact ⟨by decide, he⟩
  have hbody : (fatalErrorFrame e).drop 5 =
      'F'.toUInt8 :: (asBytes "ATAL" ++ 0 :: 'F'.toUInt8 ::
        ((asBytes "ailed to connect to catalog: " ++ asBytes e) ++ 0 :: [0])) := by
    simp only [fatalErrorFrame, asBytes_append, List.append_assoc]
    rfl
  rw [hbody, readFields, if_neg (by decide), readFields_text _ (by decide), readFields,
    if_neg (by decide), readFields_text _ hm]
  rfl

theorem fatalErrorFrame_fields_timeout :
    0 ∉ asBytes "timeout" ∧ readFields none ((fatalErrorFrame "timeout").drop 5) =
      some [('F'.toUInt8, asBytes "ATAL"),
        ('F'.toUInt8, asBytes "ailed to connect to catalog: " ++ asBytes "timeout")] :=
  ⟨by decide, fatalErrorFrame_fields (by decide)⟩

end Nexus
