import HstongApi.Errs
import HstongApi.Layout
import HstongApi.LittleEndian

/-!
# Frames of the push channel

A frame is a header of 151 bytes and a body. `encodeHeader` writes every field of a header at
its offset and `decodeHeader` reads it from there. `writeFrame` puts the flag `HS` and the
length of the body into the header and writes both; `readFrame` reads exactly one frame and
refuses what it cannot take.

The fields lie one after the other and fill the header, so a header that is written is read
back (`decodeHeader_encodeHeader`), and a header that is read is written back as the same bytes
(`encodeHeader_of_decodeHeader`). `frames_roundTrip` is about whole streams.
-/

namespace HstongApi.PushFrame

open LittleEndian Layout

/-! ## Headers -/

/-- An array of bytes. -/
abbrev Block (n : ℕ) : Type := { b : Bytes // b.length = n }

/-- `HeaderSize` -/
def headerSize : ℕ := 151

/-- `BodySHA1Len` -/
def bodySHA1Len : ℕ := 128

/-- `MaxBodyLen` -/
def maxBodyLen : ℕ := 8388608

/-- `Magic`, the text `HS` -/
def magic : Block 2 := ⟨[72, 83], rfl⟩

example : magic.1 = bytes "HS" := by decide +kernel

/-! The offsets of the fields. -/

def offHeaderFlag : ℕ := 0
def offMsgType : ℕ := 2
def offProtoFmtType : ℕ := 4
def offProtoVer : ℕ := 5
def offSerialNo : ℕ := 6
def offBodyLen : ℕ := 10
def offBodySHA1 : ℕ := 14
def offCompressAlgo : ℕ := 142
def offReserved : ℕ := 143

/-- `Header` -/
@[ext] structure Header where
  headerFlag : Block 2
  msgType : Int16
  protoFmtType : UInt8
  protoVer : UInt8
  serialNo : Int32
  bodyLen : Int32
  bodySHA1 : Block bodySHA1Len
  compressAlgorithm : UInt8
  reserved : Int64
  deriving DecidableEq

/-- The fields of a header, each with its offset. Signed fields are written as unsigned ones. -/
def fields (h : Header) : List (ℕ × Bytes) :=
  [(offHeaderFlag, h.headerFlag.1),
    (offMsgType, toBytes (w := 2) h.msgType.toBitVec),
    (offProtoFmtType, [h.protoFmtType]),
    (offProtoVer, [h.protoVer]),
    (offSerialNo, toBytes (w := 4) h.serialNo.toBitVec),
    (offBodyLen, toBytes (w := 4) h.bodyLen.toBitVec),
    (offBodySHA1, h.bodySHA1.1),
    (offCompressAlgo, [h.compressAlgorithm]),
    (offReserved, toBytes (w := 8) h.reserved.toBitVec)]

/-- `EncodeHeader` -/
def encodeHeader (h : Header) : Bytes := write (List.replicate headerSize 0) (fields h)

theorem fields_adjacent (h : Header) : Adjacent 0 (fields h) := by
  simp only [fields, Adjacent, h.headerFlag.2, h.bodySHA1.2, length_toBytes, List.length_singleton]
  decide

theorem length_fields (h : Header) : (flatten (fields h)).length = headerSize := by
  simp only [flatten, fields, List.flatMap_cons, List.flatMap_nil, List.length_append,
    h.headerFlag.2, h.bodySHA1.2, length_toBytes, List.length_singleton, List.length_nil]
  rfl

/-- The fields fill the header. -/
theorem encodeHeader_eq (h : Header) : encodeHeader h = flatten (fields h) := by
  have hwrite := write_adjacent (fields_adjacent h) (x := []) rfl (List.replicate headerSize 0)
  rw [length_fields, List.drop_eq_nil_of_le (Nat.le_of_eq List.length_replicate),
    List.append_nil] at hwrite
  exact hwrite

@[simp] theorem length_encodeHeader (h : Header) : (encodeHeader h).length = headerSize := by
  rw [encodeHeader_eq, length_fields]

/-- The errors of the framing helpers, with their details. -/
inductive FrameError
  | shortHeader (got : ℕ)
  | badMagic (got : Block 2)
  | invalidBodyLen (bodyLen : Int32)
  | bodyTooLarge (bodyLen : ℕ)
  | unsupportedCompression (algorithm : UInt8)
  /-- `io.EOF` -/
  | eof
  /-- `io.ErrUnexpectedEOF` -/
  | unexpectedEOF
  /-- `io.ErrShortWrite` -/
  | shortWrite
  /-- an error of the connection -/
  | io (err : GoError)
  deriving DecidableEq

/-- The header with the fields at their offsets. -/
def headerAt (b : Bytes) (h : headerSize ≤ b.length) : Header where
  headerFlag := ⟨sliceAt b offHeaderFlag 2, length_sliceAt (Nat.le_trans (by decide) h)⟩
  msgType := Int16.ofBitVec (ofBytes 2 (sliceAt b offMsgType 2))
  protoFmtType := b.getD offProtoFmtType 0
  protoVer := b.getD offProtoVer 0
  serialNo := Int32.ofBitVec (ofBytes 4 (sliceAt b offSerialNo 4))
  bodyLen := Int32.ofBitVec (ofBytes 4 (sliceAt b offBodyLen 4))
  bodySHA1 := ⟨sliceAt b offBodySHA1 bodySHA1Len, length_sliceAt (Nat.le_trans (by decide) h)⟩
  compressAlgorithm := b.getD offCompressAlgo 0
  reserved := Int64.ofBitVec (ofBytes 8 (sliceAt b offReserved 8))

/-- `DecodeHeader` -/
def decodeHeader (b : Bytes) : Except FrameError Header :=
  if h : headerSize ≤ b.length then
    let header := headerAt b h
    if header.headerFlag = magic then .ok header else .error (.badMagic header.headerFlag)
  else .error (.shortHeader b.length)

/-- The header at the beginning of a buffer is written back as the same bytes. -/
theorem encodeHeader_headerAt {b : Bytes} (h : headerSize ≤ b.length) :
    encodeHeader (headerAt b h) = b.take headerSize := by
  have hlen : ∀ {off n : ℕ}, off + n ≤ headerSize → (sliceAt b off n).length = n :=
    fun hle => length_sliceAt (Nat.le_trans hle h)
  have hbyte : ∀ {off : ℕ}, off < headerSize → [b.getD off 0] = sliceAt b off 1 :=
    fun hlt => (sliceAt_one (Nat.lt_of_lt_of_le hlt h)).symm
  have hblock : ∀ {off n : ℕ}, off + n ≤ headerSize →
      sliceAt b off n = sliceAt b off (sliceAt b off n).length :=
    fun hle => by rw [hlen hle]
  have hword : ∀ {off w : ℕ}, off + w ≤ headerSize →
      toBytes (ofBytes w (sliceAt b off w)) =
        sliceAt b off (toBytes (ofBytes w (sliceAt b off w))).length :=
    fun hle => by rw [length_toBytes, toBytes_ofBytes (hlen hle)]
  have hslices : ∀ f ∈ fields (headerAt b h), f.2 = sliceAt b f.1 f.2.length := by
    simp only [fields, List.forall_mem_cons]
    exact ⟨hblock (by decide), hword (by decide), hbyte (by decide), hbyte (by decide),
      hword (by decide), hword (by decide), hblock (by decide), hbyte (by decide),
      hword (by decide), nofun⟩
  rw [encodeHeader_eq, flatten_of_slices (fields_adjacent _) hslices, length_fields]
  rfl

/-- A header is read from a buffer when each of its fields is found at its offset. -/
theorem headerAt_eq {b : Bytes} (hle : headerSize ≤ b.length) {h : Header}
    (hfield : ∀ f ∈ fields h, sliceAt b f.1 f.2.length = f.2) : headerAt b hle = h := by
  have hbyte : ∀ {off : ℕ} {c : UInt8}, off < headerSize → sliceAt b off [c].length = [c] →
      b.getD off 0 = c := fun hlt hslice =>
    List.head_eq_of_cons_eq ((sliceAt_one (Nat.lt_of_lt_of_le hlt hle)).symm.trans hslice)
  have hword : ∀ {off w : ℕ} {x : BitVec (8 * w)},
      sliceAt b off (toBytes x).length = toBytes x → ofBytes w (sliceAt b off w) = x := by
    intro off w x hslice
    rw [length_toBytes] at hslice
    rw [hslice, ofBytes_toBytes]
  simp only [fields, List.forall_mem_cons, h.headerFlag.2, h.bodySHA1.2] at hfield
  obtain ⟨hflag, htype, hfmt, hver, hserial, hlen, hsha, hcompress, hreserved, -⟩ := hfield
  refine Header.ext (Subtype.ext hflag) ?_ (hbyte (by decide) hfmt) (hbyte (by decide) hver) ?_ ?_
    (Subtype.ext hsha) (hbyte (by decide) hcompress) ?_
  · exact congrArg Int16.ofBitVec (hword htype)
  · exact congrArg Int32.ofBitVec (hword hserial)
  · exact congrArg Int32.ofBitVec (hword hlen)
  · exact congrArg Int64.ofBitVec (hword hreserved)

/-- A header with the right flag that is written is read back. -/
theorem decodeHeader_encodeHeader {h : Header} (hflag : h.headerFlag = magic) (rest : Bytes) :
    decodeHeader (encodeHeader h ++ rest) = .ok h := by
  have hle : headerSize ≤ (encodeHeader h ++ rest).length := by
    rw [List.length_append, length_encodeHeader]
    exact Nat.le_add_right ..
  have hheader : headerAt (encodeHeader h ++ rest) hle = h := by
    refine headerAt_eq hle fun f hf => ?_
    rw [encodeHeader_eq]
    exact slice_adjacent (fields_adjacent h) (x := []) rfl rest hf
  simp only [decodeHeader, dif_pos hle, hheader, if_pos hflag]

/-- A header that is read is written back as the same bytes. -/
theorem encodeHeader_of_decodeHeader {b : Bytes} {h : Header} (hdecode : decodeHeader b = .ok h) :
    encodeHeader h = b.take headerSize ∧ h.headerFlag = magic := by
  simp only [decodeHeader] at hdecode
  split at hdecode
  · split at hdecode <;> cases hdecode
    exact ⟨encodeHeader_headerAt _, ‹_›⟩
  · cases hdecode

/-! ## Reading -/

/-- What a connection has still to give, and the error that comes then. Without one it ends. -/
structure Reader where
  data : Bytes
  fail : Option GoError := none
  deriving DecidableEq

/-- `io.ReadFull` -/
def readFull (r : Reader) (n : ℕ) : Reader × Except FrameError Bytes :=
  if n ≤ r.data.length then ({ r with data := r.data.drop n }, .ok (r.data.take n))
  else
    ({ r with data := [] },
      .error (match r.fail with
        | some err => .io err
        | none => if r.data = [] then .eof else .unexpectedEOF))

/-- `ReadFrame` -/
def readFrame (r : Reader) : Reader × Except FrameError (Header × Bytes) :=
  match readFull r headerSize with
  | (r, .error err) => (r, .error err)
  | (r, .ok raw) =>
    match decodeHeader raw with
    | .error err => (r, .error err)
    | .ok h =>
      if h.bodyLen.toInt < 0 then (r, .error (.invalidBodyLen h.bodyLen))
      else if maxBodyLen < h.bodyLen.toInt then (r, .error (.bodyTooLarge h.bodyLen.toInt.toNat))
      else if h.compressAlgorithm ≠ 0 then
        (r, .error (.unsupportedCompression h.compressAlgorithm))
      else if h.bodyLen.toInt = 0 then (r, .ok (h, []))
      else
        match readFull r h.bodyLen.toInt.toNat with
        | (r, .error err) => (r, .error err)
        | (r, .ok body) => (r, .ok (h, body))

theorem readFull_append {x rest : Bytes} {n : ℕ} (h : x.length = n) (fail : Option GoError) :
    readFull ⟨x ++ rest, fail⟩ n = (⟨rest, fail⟩, .ok x) := by
  have hle : n ≤ (x ++ rest).length := by
    rw [List.length_append, h]
    exact Nat.le_add_right ..
  simp only [readFull, if_pos hle, List.take_left' h, List.drop_left' h]

theorem readFull_eq_ok {r r' : Reader} {n : ℕ} {x : Bytes} (h : readFull r n = (r', .ok x)) :
    r = ⟨x ++ r'.data, r'.fail⟩ ∧ x.length = n := by
  simp only [readFull] at h
  split at h
  · rename_i hle
    obtain ⟨rfl, hx⟩ := Prod.ext_iff.mp h
    obtain rfl : r.data.take n = x := Except.ok.inj hx
    refine ⟨?_, List.length_take_of_le hle⟩
    rw [List.take_append_drop]
  · cases (Prod.ext_iff.mp h).2

/-- The frames that `ReadFrame` takes. -/
structure Readable (h : Header) (body : Bytes) : Prop where
  flag : h.headerFlag = magic
  bodyLen : h.bodyLen.toInt = body.length
  small : body.length ≤ maxBodyLen
  plain : h.compressAlgorithm = 0

/-- A frame in the stream. -/
def encodeFrame (h : Header) (body : Bytes) : Bytes := encodeHeader h ++ body

variable {r r' : Reader} {h : Header} {body : Bytes}

/-- **`ReadFrame` consumes exactly the frame that it returns.** -/
theorem readFrame_eq_ok :
    readFrame r = (r', .ok (h, body)) ↔
      Readable h body ∧ r = ⟨encodeFrame h body ++ r'.data, r'.fail⟩ := by
  refine ⟨fun hread => ?_, ?_⟩
  · simp only [readFrame] at hread
    split at hread
    · cases (Prod.ext_iff.mp hread).2
    · rename_i r₁ raw hraw
      obtain ⟨rfl, hlen⟩ := readFull_eq_ok hraw
      split at hread
      · cases (Prod.ext_iff.mp hread).2
      · rename_i h' hdecode
        obtain ⟨hencode, hflag⟩ := encodeHeader_of_decodeHeader hdecode
        rw [List.take_of_length_le (Nat.le_of_eq hlen)] at hencode
        iterate 3
          split at hread
          · cases (Prod.ext_iff.mp hread).2
        split at hread
        · obtain ⟨rfl, hok⟩ := Prod.ext_iff.mp hread
          cases hok
          refine ⟨⟨hflag, ‹_›, Nat.zero_le _, not_not.mp ‹_›⟩, ?_⟩
          rw [encodeFrame, List.append_nil, hencode]
        · split at hread
          · cases (Prod.ext_iff.mp hread).2
          · rename_i r₂ body' hbody
            obtain ⟨rfl, hbodyLen⟩ := readFull_eq_ok hbody
            have hint : h'.bodyLen.toInt = body'.length := by omega
            have hsmall : body'.length ≤ maxBodyLen := by omega
            obtain ⟨rfl, hok⟩ := Prod.ext_iff.mp hread
            cases hok
            refine ⟨⟨hflag, hint, hsmall, not_not.mp ‹_›⟩, ?_⟩
            rw [encodeFrame, hencode, List.append_assoc]
  · rintro ⟨⟨hflag, hbodyLen, hsmall, hplain⟩, rfl⟩
    have hdecode : decodeHeader (encodeHeader h) = .ok h := by
      rw [← List.append_nil (encodeHeader h)]
      exact decodeHeader_encodeHeader hflag []
    have hnonneg : ¬ h.bodyLen.toInt < 0 := by omega
    have hfits : ¬ (maxBodyLen : ℤ) < h.bodyLen.toInt := by omega
    simp only [readFrame, encodeFrame, List.append_assoc, readFull_append (length_encodeHeader h),
      hdecode, if_neg hnonneg, if_neg hfits, if_neg (not_not_intro hplain)]
    split
    · obtain rfl : body = [] := List.length_eq_zero_iff.mp (by omega)
      rfl
    · have hlen : body.length = h.bodyLen.toInt.toNat := by omega
      rw [readFull_append hlen]

theorem length_lt_of_readFrame (hread : readFrame r = (r', .ok (h, body))) :
    r'.data.length < r.data.length := by
  obtain ⟨-, rfl⟩ := readFrame_eq_ok.mp hread
  rw [List.length_append, encodeFrame, List.length_append, length_encodeHeader]
  exact Nat.lt_add_of_pos_left (Nat.lt_of_lt_of_le (by decide) (Nat.le_add_right ..))

/-- The frames that are read from a connection, and the error at which the reading ends. -/
def readFrames (r : Reader) : List (Header × Bytes) × FrameError :=
  match hread : readFrame r with
  | (r', .ok (h, body)) =>
    have : r'.data.length < r.data.length := length_lt_of_readFrame hread
    ((h, body) :: (readFrames r').1, (readFrames r').2)
  | (_, .error err) => ([], err)
termination_by r.data.length

theorem readFrames_cons (hread : readFrame r = (r', .ok (h, body))) :
    readFrames r = ((h, body) :: (readFrames r').1, (readFrames r').2) := by
  rw [readFrames]
  split
  · rename_i r₁ h₁ body₁ hread₁
    cases hread.symm.trans hread₁
    rfl
  · rename_i hread₁
    cases hread.symm.trans hread₁

theorem readFrames_nil {err : FrameError} (hread : readFrame r = (r', .error err)) :
    readFrames r = ([], err) := by
  rw [readFrames]
  split
  · rename_i hread₁
    cases hread.symm.trans hread₁
  · rename_i hread₁
    cases hread.symm.trans hread₁
    rfl

variable {frames : List (Header × Bytes)}

theorem readFrames_eq_cons {f : Header × Bytes} (hframes : (readFrames r).1 = f :: frames) :
    ∃ r', readFrame r = (r', .ok f) ∧ (readFrames r').1 = frames := by
  rcases hread : readFrame r with ⟨r', err | ⟨h, body⟩⟩
  · rw [readFrames_nil hread] at hframes
    cases hframes
  · rw [readFrames_cons hread] at hframes
    cases hframes
    exact ⟨r', rfl, rfl⟩

/-- **A connection that breaks off gives no wrong frame**: the frames that are read from the beginning
of a stream are the first ones that are read from the stream. -/
theorem readFrames_prefix (r : Reader) (rest : Bytes) (fail : Option GoError) :
    (readFrames r).1 <+: (readFrames ⟨r.data ++ rest, fail⟩).1 := by
  induction hn : r.data.length using Nat.strong_induction_on generalizing r with
  | _ n ih =>
    rcases hread : readFrame r with ⟨r', err | ⟨h, body⟩⟩
    · rw [readFrames_nil hread]
      exact List.nil_prefix
    · have hmore : readFrame ⟨r.data ++ rest, fail⟩ = (⟨r'.data ++ rest, fail⟩, .ok (h, body)) := by
        obtain ⟨hreadable, rfl⟩ := readFrame_eq_ok.mp hread
        exact readFrame_eq_ok.mpr ⟨hreadable, by rw [List.append_assoc]⟩
      rw [readFrames_cons hread, readFrames_cons hmore, List.cons_prefix_cons]
      exact ⟨rfl, ih _ (hn ▸ length_lt_of_readFrame hread) r' rfl⟩

/-! ## Writing -/

/-- An `io.Writer`: how many bytes are written, and with what error. -/
structure Writer (σ : Type) where
  write : σ → Bytes → σ × ℕ × Option GoError

/-- `bytes.Buffer` -/
def buffer : Writer Bytes := ⟨fun s b => (s ++ b, b.length, none)⟩

section

variable {σ : Type} (w : Writer σ)

/-- `writeFull` -/
def writeFull (s : σ) (b : Bytes) : σ × Option FrameError :=
  match w.write s b with
  | (s, _, some err) => (s, some (.io err))
  | (s, n, none) => if n ≠ b.length then (s, some .shortWrite) else (s, none)

/-- The header that `WriteFrame` writes. -/
def sentHeader (h : Header) (body : Bytes) : Header :=
  { h with headerFlag := magic, bodyLen := Int32.ofNat body.length }

/-- `WriteFrame` -/
def writeFrame (s : σ) (h : Header) (body : Bytes) : σ × Option FrameError :=
  if maxBodyLen < body.length then (s, some (.bodyTooLarge body.length))
  else
    match writeFull w s (encodeHeader (sentHeader h body)) with
    | (s, some err) => (s, some err)
    | (s, none) => if 0 < body.length then writeFull w s body else (s, none)

/-- Frames are written one after the other, up to the first error. -/
def writeFrames (s : σ) : List (Header × Bytes) → σ × Option FrameError
  | [] => (s, none)
  | f :: frames =>
    match writeFrame w s f.1 f.2 with
    | (s, some err) => (s, some err)
    | (s, none) => writeFrames s frames

end

theorem writeFrame_buffer (s : Bytes) (h : Header) (hlen : body.length ≤ maxBodyLen) :
    writeFrame buffer s h body = (s ++ encodeFrame (sentHeader h body) body, none) := by
  have hfull : ∀ s b : Bytes, writeFull buffer s b = (s ++ b, none) := fun s b => if_neg (· rfl)
  simp only [writeFrame, if_neg (Nat.not_lt.mpr hlen), hfull]
  split
  · rw [encodeFrame, List.append_assoc]
  · obtain rfl : body = [] := List.length_eq_zero_iff.mp (Nat.eq_zero_of_not_pos ‹_›)
    rw [encodeFrame, List.append_nil]

theorem toInt_sentHeader (h : Header) (hlen : body.length ≤ maxBodyLen) :
    (sentHeader h body).bodyLen.toInt = body.length :=
  Int32.toInt_ofNat_of_lt (Nat.lt_of_le_of_lt hlen (by decide))

/-- A frame that can be read is written as it is. -/
theorem sentHeader_of_readable (hr : Readable h body) : sentHeader h body = h := by
  have hlen : Int32.ofNat body.length = h.bodyLen :=
    Int32.toInt_inj.mp ((toInt_sentHeader h hr.small).trans hr.bodyLen.symm)
  rw [sentHeader, hlen, ← hr.flag]

/-! ## Streams of frames -/

/-- The frames that `WriteFrame` can send so that they can be read. -/
def Sendable (f : Header × Bytes) : Prop := f.1.compressAlgorithm = 0 ∧ f.2.length ≤ maxBodyLen

/-- What is written for some frames. -/
def encodeFrames (frames : List (Header × Bytes)) : Bytes :=
  frames.flatMap fun f => encodeFrame f.1 f.2

/-- A frame that is read stands in the stream where the frames before it end. -/
theorem data_eq_of_readFrames {before after : List (Header × Bytes)}
    (hframes : (readFrames r).1 = before ++ (h, body) :: after) :
    ∃ rest, r.data = encodeFrames before ++ encodeFrame h body ++ rest := by
  induction before generalizing r with
  | nil =>
    obtain ⟨r', hread, -⟩ := readFrames_eq_cons hframes
    obtain ⟨-, rfl⟩ := readFrame_eq_ok.mp hread
    refine ⟨r'.data, ?_⟩
    rw [encodeFrames, List.flatMap_nil, List.nil_append]
  | cons f before ih =>
    obtain ⟨r', hread, htail⟩ := readFrames_eq_cons hframes
    obtain ⟨rest, hrest⟩ := ih htail
    obtain ⟨-, rfl⟩ := readFrame_eq_ok.mp hread
    refine ⟨rest, ?_⟩
    simp only [hrest, encodeFrames, List.flatMap_cons, List.append_assoc]

/-- A frame as it is sent. -/
def sentFrame (f : Header × Bytes) : Header × Bytes := (sentHeader f.1 f.2, f.2)

theorem writeFrames_buffer (h : ∀ f ∈ frames, Sendable f) (s : Bytes) :
    writeFrames buffer s frames = (s ++ encodeFrames (frames.map sentFrame), none) := by
  induction frames generalizing s with
  | nil => exact Prod.ext (List.append_nil s).symm rfl
  | cons f frames ih =>
    obtain ⟨hf, hframes⟩ := List.forall_mem_cons.mp h
    rw [writeFrames, writeFrame_buffer s f.1 hf.2, List.map_cons, encodeFrames, List.flatMap_cons,
      ← List.append_assoc]
    exact ih hframes _

theorem readFrames_encodeFrames (h : ∀ f ∈ frames, Readable f.1 f.2) :
    readFrames ⟨encodeFrames frames, none⟩ = (frames, .eof) := by
  induction frames with
  | nil =>
    have hread : readFrame ⟨encodeFrames [], none⟩ = (⟨[], none⟩, .error .eof) := rfl
    exact readFrames_nil hread
  | cons f frames ih =>
    obtain ⟨hf, hframes⟩ := List.forall_mem_cons.mp h
    have hread : readFrame ⟨encodeFrames (f :: frames), none⟩ =
        (⟨encodeFrames frames, none⟩, .ok (f.1, f.2)) :=
      readFrame_eq_ok.mpr ⟨hf, by rw [encodeFrames, List.flatMap_cons]; rfl⟩
    rw [readFrames_cons hread, ih hframes]

/-- **Round trip of frames.** Frames without compression that are not too large are read back
from what is written for them, with the flag and the length filled in, and then the input ends.
A frame that is read is written as exactly the bytes that were consumed. -/
theorem frames_roundTrip :
    (∀ frames : List (Header × Bytes), (∀ f ∈ frames, Sendable f) →
      ∃ out, writeFrames buffer [] frames = (out, none) ∧
        readFrames ⟨out, none⟩ = (frames.map sentFrame, .eof)) ∧
    ∀ (r r' : Reader) (h : Header) (body : Bytes), readFrame r = (r', .ok (h, body)) →
      ∃ out, writeFrame buffer [] h body = (out, none) ∧ r = ⟨out ++ r'.data, r'.fail⟩ := by
  refine ⟨fun frames hframes => ?_, fun r r' h body hread => ?_⟩
  · refine ⟨encodeFrames (frames.map sentFrame), writeFrames_buffer hframes [], ?_⟩
    refine readFrames_encodeFrames fun f hf => ?_
    obtain ⟨g, hg, rfl⟩ := List.mem_map.mp hf
    obtain ⟨hplain, hsmall⟩ := hframes g hg
    exact ⟨rfl, toInt_sentHeader g.1 hsmall, hsmall, hplain⟩
  · obtain ⟨hreadable, hr⟩ := readFrame_eq_ok.mp hread
    refine ⟨encodeFrame h body, ?_, hr⟩
    rw [writeFrame_buffer [] h hreadable.small, sentHeader_of_readable hreadable, List.nil_append]

theorem length_zeros : (List.replicate bodySHA1Len 0 : Bytes).length = bodySHA1Len :=
  List.length_replicate

/-- The header of a push frame without a signature. -/
def unsignedHeader : Header :=
  ⟨⟨[0, 0], rfl⟩, 3, 0, 0, 7, 0, ⟨List.replicate bodySHA1Len 0, length_zeros⟩, 0, 0⟩

theorem frames_roundTrip_unsigned :
    (∃ out, writeFrames buffer [] [(unsignedHeader, [1, 2]), (unsignedHeader, [])] = (out, none) ∧
      readFrames ⟨out, none⟩ =
        ([sentFrame (unsignedHeader, [1, 2]), sentFrame (unsignedHeader, [])], .eof)) ∧
    ∃ out, writeFrame buffer [] (sentHeader unsignedHeader [1, 2]) [1, 2] = (out, none) ∧
      (⟨encodeFrame (sentHeader unsignedHeader [1, 2]) [1, 2] ++ [9], none⟩ : Reader) =
        ⟨out ++ [9], none⟩ := by
  have hsendable : ∀ f ∈ [(unsignedHeader, [1, 2]), (unsignedHeader, [])], Sendable f :=
    List.forall_mem_cons.mpr ⟨⟨rfl, by decide⟩, List.forall_mem_singleton.mpr ⟨rfl, by decide⟩⟩
  have hread : readFrame ⟨encodeFrame (sentHeader unsignedHeader [1, 2]) [1, 2] ++ [9], none⟩ =
      (⟨[9], none⟩, .ok (sentHeader unsignedHeader [1, 2], [1, 2])) :=
    readFrame_eq_ok.mpr ⟨⟨rfl, rfl, by decide, rfl⟩, rfl⟩
  exact ⟨frames_roundTrip.1 _ hsendable, frames_roundTrip.2 _ _ _ _ hread⟩

end HstongApi.PushFrame
