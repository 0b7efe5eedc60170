import HstongApi.PushFrame
import HstongApi.PushNormalize

/-!
# Verification of push frames

A push client that was given a public key checks the signature of every push frame over the
body of the frame. If verification is required then a frame that fails is dropped. A key that
cannot be parsed is remembered by `New`, and `Connect` and `Run` return it.

The cryptography is the parameter `Crypto`, about which nothing is assumed.
`dispatched_readLoop` says what the read loop makes of a stream, frame by frame, and
`verification_enforced` follows from what it does with one frame.
-/

namespace HstongApi.PushVerify

open PushFrame PushEvents

/-! ## Keys and signatures -/

/-- What is used of the packages for cryptography. -/
class Crypto where
  /-- `*rsa.PublicKey` -/
  Key : Type
  /-- `pem.Decode`: the bytes of the first block -/
  pemDecode : Bytes → Option Bytes
  /-- `base64.StdEncoding.DecodeString` -/
  base64Decode : Bytes → Option Bytes
  /-- `x509.ParsePKIXPublicKey`: some key, which may not be one of RSA -/
  parsePKIXPublicKey : Bytes → Option (Option Key)
  /-- `x509.ParsePKCS1PublicKey` -/
  parsePKCS1PublicKey : Bytes → Option Key
  /-- `sha1.Sum` -/
  sha1 : Bytes → Bytes
  /-- `rsa.VerifyPKCS1v15` with `crypto.SHA1`: no error, or the text of one -/
  verifyPKCS1v15 : Key → Bytes → Bytes → Option Bytes

/-- The errors of the verifier. -/
inductive VerifyError
  | noPublicKey
  | missingSignature
  | signatureMismatch (err : Bytes)
  | unsupportedKey (detail : Bytes)
  deriving DecidableEq

variable {body : Bytes}

section

variable [Crypto]

/-- `parseDERPublicKey` -/
def parseDERPublicKey (der : Bytes) : Except VerifyError Crypto.Key :=
  match Crypto.parsePKIXPublicKey der with
  | some (some key) => .ok key
  | some none => .error (.unsupportedKey (bytes "not an RSA public key"))
  | none =>
    match Crypto.parsePKCS1PublicKey der with
    | some key => .ok key
    | none =>
      .error (.unsupportedKey (bytes "not a PEM PUBLIC KEY block, base64 SPKI, or SPKI DER"))

/-- `ParsePublicKey` -/
def parsePublicKey [UnicodeTables] (encoded : Bytes) : Except VerifyError Crypto.Key :=
  let data := trimSpace encoded
  if data = [] then .error (.unsupportedKey (bytes "empty input"))
  else
    match Crypto.pemDecode data with
    | some block => parseDERPublicKey block
    | none =>
      match (Crypto.base64Decode data).map parseDERPublicKey with
      | some (.ok key) => .ok key
      | some (.error _) | none => parseDERPublicKey data

/-- `Verifier` -/
structure Verifier where
  key : Option Crypto.Key
  required : Bool

/-- The signature of a frame that is not signed. -/
def zeroSignature : Block bodySHA1Len := ⟨List.replicate bodySHA1Len 0, length_zeros⟩

/-- `Verifier.Verify` -/
def Verifier.verify (v : Verifier) (h : Header) (body : Bytes) : Option VerifyError :=
  match v.key with
  | none => some .noPublicKey
  | some key =>
    if h.bodySHA1 = zeroSignature then some .missingSignature
    else (Crypto.verifyPKCS1v15 key (Crypto.sha1 body) h.bodySHA1.1).map .signatureMismatch

/-- The frame is signed with the key, over this body. -/
structure Signed (key : Crypto.Key) (h : Header) (body : Bytes) : Prop where
  nonzero : h.bodySHA1 ≠ zeroSignature
  verifies : Crypto.verifyPKCS1v15 key (Crypto.sha1 body) h.bodySHA1.1 = none

theorem Verifier.verify_eq_none {key : Crypto.Key} {required : Bool} {h : Header} :
    (Verifier.mk (some key) required).verify h body = none ↔ Signed key h body := by
  simp only [Verifier.verify]
  split
  · exact ⟨nofun, fun hsigned => absurd ‹_› hsigned.nonzero⟩
  · exact ⟨fun h => ⟨‹_›, Option.map_eq_none_iff.mp h⟩,
      fun hsigned => Option.map_eq_none_iff.mpr hsigned.verifies⟩

/-! ## The client -/

/-- The errors that the client returns or reports. -/
inductive ClientError
  /-- `ErrClosed` -/
  | closed
  | context (err : GoError)
  | verify (err : VerifyError)
  | frame (err : FrameError)
  | dial (err : GoError)
  | decode (err : Bytes)
  deriving DecidableEq

/-- The options for verification. -/
structure Options where
  verifyPublicKey : Bytes := []
  verifyRequired : Bool := false

/-- `Client`: what reading a stream needs of it. -/
structure Client where
  opts : Options
  verifier : Option Verifier
  initErr : Option VerifyError

/-- `New` -/
def new [UnicodeTables] (opts : Options) : Client :=
  if opts.verifyPublicKey = [] then ⟨opts, none, none⟩
  else
    match parsePublicKey opts.verifyPublicKey with
    | .error err => ⟨opts, none, some err⟩
    | .ok key => ⟨opts, some ⟨some key, opts.verifyRequired⟩, none⟩

/-- `verifyFrame` -/
def Client.verifyFrame (c : Client) (h : Header) (body : Bytes) : Option VerifyError :=
  match c.verifier with
  | none => none
  | some v => v.verify h body

def msgHeartbeat : Int16 := 0
def msgRequest : Int16 := 1
def msgResponse : Int16 := 2
def msgPush : Int16 := 3

/-- What a client does with the connections that it has. -/
structure Effects where
  /-- the connections that `readLoop` was called with -/
  read : List Reader := []
  /-- the notifications that were given to `dispatch` -/
  dispatched : List Notification := []
  /-- the errors that were given to `report` -/
  reported : List ClientError := []

/-- One thing after the other. -/
def Effects.append (e e' : Effects) : Effects :=
  ⟨e.read ++ e'.read, e.dispatched ++ e'.dispatched, e.reported ++ e'.reported⟩

section ReadLoop

variable [Protobuf]

/-- The end of an iteration of the read loop. -/
def dispatchBody (body : Bytes) : Effects :=
  match decodeNotification body with
  | .error err => { reported := [.decode err] }
  | .ok n => { dispatched := [n] }

/-- An iteration of the read loop, after the frame has been read. -/
def Client.handleFrame (c : Client) (h : Header) (body : Bytes) : Effects :=
  if h.msgType = msgHeartbeat ∨ h.msgType = msgRequest ∨ h.msgType = msgResponse then {}
  else if h.msgType = msgPush then
    match c.verifyFrame h body with
    | some err =>
      if c.opts.verifyRequired then { reported := [.verify err] }
      else Effects.append { reported := [.verify err] } (dispatchBody body)
    | none => dispatchBody body
  else {}

/-- `readLoop`: what it does with the frames, and the error that it returns. -/
def Client.readLoop (c : Client) (r : Reader) : Effects × FrameError :=
  match hread : readFrame r with
  | (_, .error err) => ({}, err)
  | (r', .ok (h, body)) =>
    have : r'.data.length < r.data.length := length_lt_of_readFrame hread
    ((c.handleFrame h body).append (c.readLoop r').1, (c.readLoop r').2)
termination_by r.data.length

end ReadLoop

/-! ## `Connect` and `Run` -/

/-- What `Connect` and `Run` find around them. Every look at the world may change it, since other
goroutines go on meanwhile. -/
structure Env (σ : Type) where
  closed : σ → σ × Bool
  ctxErr : σ → σ × Option GoError
  currentConn : σ → σ × Option Reader
  dial : σ → σ × Except GoError Reader
  setConn : Reader → σ → σ
  closeConn : σ → σ
  /-- `conn.Close` on a connection that was dialed and is not kept -/
  discard : Reader → σ → σ
  sleepCtx : σ → σ × Bool
  fireOnReconnect : FrameError → σ → σ

/-- How far a loop came: it has returned, or it goes on. -/
inductive Outcome
  | returned (err : Option ClientError)
  | running

variable {σ : Type}

/-- `Connect` -/
def Client.connect (c : Client) (env : Env σ) (w : σ) : σ × Option ClientError :=
  match env.closed w with
  | (w, true) => (w, some .closed)
  | (w, false) =>
    match c.initErr with
    | some err => (w, some (.verify err))
    | none =>
      match env.currentConn w with
      | (w, some _) => (w, none)
      | (w, none) =>
        match env.dial w with
        | (w, .error err) => (w, some (.dial err))
        | (w, .ok conn) =>
          match env.closed w with
          | (w, true) => (env.discard conn w, some .closed)
          | (w, false) =>
            match env.currentConn w with
            | (w, some _) => (env.discard conn w, none)
            | (w, none) => (env.setConn conn w, none)

/-- `exitCause` -/
def exitCause (env : Env σ) (w : σ) : σ × Outcome :=
  match env.closed w with
  | (w, true) => (w, .returned (some .closed))
  | (w, false) =>
    let (w, err) := env.ctxErr w
    (w, .returned (err.map .context))

/-- The loop that dials again after a connection has ended. -/
def redial (env : Env σ) : ℕ → σ → σ × Except Outcome Reader
  | 0, w => (w, .error .running)
  | fuel + 1, w =>
    match env.dial w with
    | (w, .ok nc) => (w, .ok nc)
    | (w, .error _) =>
      match env.sleepCtx w with
      | (w, false) =>
        let (w, outcome) := exitCause env w
        (w, .error outcome)
      | (w, true) =>
        match env.closed w with
        | (w, true) => (w, .error (.returned none))
        | (w, false) => redial env fuel w

/-- The end of an iteration of `Run`: the connection ended with this error. -/
def reconnect (env : Env σ) (fuel : ℕ) (err : FrameError) (w : σ) : σ × Effects × Outcome :=
  match env.closed w with
  | (w, true) => (w, {}, .returned none)
  | (w, false) =>
    match env.ctxErr w with
    | (w, some cause) => (w, {}, .returned (some (.context cause)))
    | (w, none) =>
      match redial env fuel w with
      | (w, .error outcome) => (w, { reported := [.frame err] }, outcome)
      | (w, .ok nc) =>
        (env.fireOnReconnect err (env.setConn nc w), { reported := [.frame err] }, .running)

section Run

variable [Protobuf]

/-- An iteration of the loop of `Run`. -/
def Client.iterate (c : Client) (env : Env σ) (fuel : ℕ) (w : σ) : σ × Effects × Outcome :=
  match env.closed w with
  | (w, true) => (w, {}, .returned (some .closed))
  | (w, false) =>
    match env.ctxErr w with
    | (w, some err) => (w, {}, .returned (some (.context err)))
    | (w, none) =>
      match env.currentConn w with
      | (w, none) =>
        match env.dial w with
        | (w, .error err) =>
          match env.sleepCtx w with
          | (w, false) =>
            let (w, outcome) := exitCause env w
            (w, { reported := [.dial err] }, outcome)
          | (w, true) => (w, { reported := [.dial err] }, .running)
        | (w, .ok nc) => (env.setConn nc w, {}, .running)
      | (w, some conn) =>
        let (effects, err) := c.readLoop conn
        let (w, after, outcome) := reconnect env fuel err (env.closeConn w)
        (w, (Effects.append { read := [conn] } effects).append after, outcome)

/-- The loop of `Run`, as far as the fuel goes. -/
def Client.runLoop (c : Client) (env : Env σ) : ℕ → σ → σ × Effects × Outcome
  | 0, w => (w, {}, .running)
  | fuel + 1, w =>
    match c.iterate env fuel w with
    | (w, effects, .returned err) => (w, effects, .returned err)
    | (w, effects, .running) =>
      let (w, later, outcome) := c.runLoop env fuel w
      (w, effects.append later, outcome)

/-- `Run` -/
def Client.run (c : Client) (env : Env σ) (fuel : ℕ) (w : σ) : σ × Effects × Outcome :=
  match c.initErr with
  | some err => (w, {}, .returned (some (.verify err)))
  | none => c.runLoop env fuel w

end Run

/-! ## What the read loop dispatches -/

section Dispatched

variable [Protobuf]

theorem Client.readLoop_ok (c : Client) {r r' : Reader} {h : Header}
    (hread : readFrame r = (r', .ok (h, body))) :
    c.readLoop r = ((c.handleFrame h body).append (c.readLoop r').1, (c.readLoop r').2) := by
  rw [readLoop]
  split
  · rename_i heq
    cases hread.symm.trans heq
  · rename_i heq
    cases hread.symm.trans heq
    rfl

theorem Client.readLoop_error (c : Client) {r r' : Reader} {err : FrameError}
    (hread : readFrame r = (r', .error err)) : c.readLoop r = ({}, err) := by
  rw [readLoop]
  split
  · rename_i heq
    cases hread.symm.trans heq
    rfl
  · rename_i heq
    cases hread.symm.trans heq

/-- **The read loop dispatches what it makes of the frames of the stream, one by one.** -/
theorem Client.dispatched_readLoop (c : Client) (r : Reader) :
    (c.readLoop r).1.dispatched =
      (readFrames r).1.flatMap fun f => (c.handleFrame f.1 f.2).dispatched := by
  induction hlen : r.data.length using Nat.strong_induction_on generalizing r with
  | _ n ih =>
    subst hlen
    rcases hread : readFrame r with ⟨r', err | ⟨h, body⟩⟩
    · rw [c.readLoop_error hread, readFrames_nil hread]
      rfl
    · rw [c.readLoop_ok hread, readFrames_cons hread, List.flatMap_cons,
        ← ih _ (length_lt_of_readFrame hread) r' rfl]
      rfl

omit [Crypto] in
theorem mem_dispatchBody {n : Notification} (hn : n ∈ (dispatchBody body).dispatched) :
    decodeNotification body = .ok n := by
  unfold dispatchBody at hn
  split at hn
  · cases hn
  · rwa [List.mem_singleton.mp hn]

/-- With a key and verification required, a frame has to be a signed push frame. -/
theorem Client.mem_handleFrame {c : Client} {key : Crypto.Key} {required : Bool}
    (hverifier : c.verifier = some ⟨some key, required⟩) (hrequired : c.opts.verifyRequired = true)
    {h : Header} {n : Notification} (hn : n ∈ (c.handleFrame h body).dispatched) :
    h.msgType = msgPush ∧ Signed key h body ∧ decodeNotification body = .ok n := by
  simp only [handleFrame, verifyFrame, hverifier, hrequired, if_true] at hn
  split at hn
  · cases hn
  · split at hn
    · split at hn
      · cases hn
      · exact ⟨‹_›, Verifier.verify_eq_none.mp ‹_›, mem_dispatchBody hn⟩
    · cases hn

/-! ## What a run dispatches -/

/-- All that was dispatched came from the connections that were read. -/
def Client.Explains (c : Client) (e : Effects) : Prop :=
  ∀ n ∈ e.dispatched, ∃ r ∈ e.read, n ∈ (c.readLoop r).1.dispatched

theorem Client.Explains.append {c : Client} {e e' : Effects} (h : c.Explains e)
    (h' : c.Explains e') : c.Explains (e.append e') := by
  intro n hn
  rcases List.mem_append.mp hn with hn | hn
  · obtain ⟨r, hr, hloop⟩ := h n hn
    exact ⟨r, List.mem_append_left _ hr, hloop⟩
  · obtain ⟨r, hr, hloop⟩ := h' n hn
    exact ⟨r, List.mem_append_right _ hr, hloop⟩

theorem Client.explains_of_nil (c : Client) {e : Effects} (h : e.dispatched = []) :
    c.Explains e := by
  intro n hn
  rw [h] at hn
  cases hn

theorem Client.explains_readLoop (c : Client) (r : Reader) :
    c.Explains (Effects.append { read := [r] } (c.readLoop r).1) :=
  fun _ hn => ⟨r, List.mem_append_left _ (List.mem_singleton_self r), hn⟩

omit [Crypto] [Protobuf] in
theorem dispatched_reconnect (env : Env σ) (fuel : ℕ) (err : FrameError) (w : σ) :
    (reconnect env fuel err w).2.1.dispatched = [] := by
  unfold reconnect
  split
  · rfl
  · split
    · rfl
    · split <;> rfl

theorem Client.explains_iterate (c : Client) (env : Env σ) (fuel : ℕ) (w : σ) :
    c.Explains (c.iterate env fuel w).2.1 := by
  unfold iterate
  split
  · exact c.explains_of_nil rfl
  · split
    · exact c.explains_of_nil rfl
    · split
      · split
        · split <;> exact c.explains_of_nil rfl
        · exact c.explains_of_nil rfl
      · exact (c.explains_readLoop _).append (c.explains_of_nil (dispatched_reconnect ..))

theorem Client.explains_runLoop (c : Client) (env : Env σ) (fuel : ℕ) (w : σ) :
    c.Explains (c.runLoop env fuel w).2.1 := by
  induction fuel generalizing w with
  | zero => exact c.explains_of_nil rfl
  | succ fuel ih =>
    have hstep := c.explains_iterate env fuel w
    unfold runLoop
    split
    · rename_i heq
      rwa [heq] at hstep
    · rename_i heq
      rw [heq] at hstep
      exact hstep.append (ih _)

end Dispatched

theorem new_of_ok [UnicodeTables] {opts : Options} (hkey : opts.verifyPublicKey ≠ [])
    {key : Crypto.Key} (hparse : parsePublicKey opts.verifyPublicKey = .ok key) :
    new opts = ⟨opts, some ⟨some key, opts.verifyRequired⟩, none⟩ := by
  rw [new, if_neg hkey, hparse]

theorem new_of_error [UnicodeTables] {opts : Options} (hkey : opts.verifyPublicKey ≠ [])
    {err : VerifyError} (hparse : parsePublicKey opts.verifyPublicKey = .error err) :
    new opts = ⟨opts, none, some err⟩ := by
  rw [new, if_neg hkey, hparse]

/-- A client that could not parse its key does not get to dial, after having looked whether it
is closed. -/
theorem Client.connect_of_initErr {c : Client} {err : VerifyError} (hinit : c.initErr = some err)
    (env : Env σ) (w : σ) : ∃ e, c.connect env w = ((env.closed w).1, some e) := by
  simp only [connect, hinit]
  split
  · rename_i heq
    exact ⟨.closed, by rw [heq]⟩
  · rename_i heq
    exact ⟨.verify err, by rw [heq]⟩

/-- **Required verification is enforced on every stream.** Whatever `Run` finds around it, a
notification that it dispatches is the body of a push frame that it read, and that body is signed
with the key. If the key does not parse then `Run` does nothing but return the error, and
`Connect` returns an error and does not dial. -/
theorem verification_enforced [UnicodeTables] [Protobuf] (opts : Options)
    (hkey : opts.verifyPublicKey ≠ []) (hrequired : opts.verifyRequired = true) :
    (∀ (σ : Type) (env : Env σ) (fuel : ℕ) (w : σ),
      ∀ n ∈ ((new opts).run env fuel w).2.1.dispatched,
        ∃ key, parsePublicKey opts.verifyPublicKey = .ok key ∧
          ∃ r ∈ ((new opts).run env fuel w).2.1.read, ∃ before h body after rest,
            (readFrames r).1 = before ++ (h, body) :: after ∧
            r.data = encodeFrames before ++ encodeFrame h body ++ rest ∧
            h.msgType = msgPush ∧ Signed key h body ∧ decodeNotification body = .ok n) ∧
    ∀ err, parsePublicKey opts.verifyPublicKey = .error err →
      ∀ (σ : Type) (env : Env σ) (fuel : ℕ) (w : σ),
        (new opts).run env fuel w = (w, {}, .returned (some (.verify err))) ∧
        ∃ e, (new opts).connect env w = ((env.closed w).1, some e) := by
  refine ⟨fun σ env fuel w n hn => ?_, fun err hparse σ env fuel w => ?_⟩
  · cases hparse : parsePublicKey opts.verifyPublicKey with
    | error err =>
      rw [new_of_error hkey hparse] at hn
      cases hn
    | ok key =>
      have hnew := new_of_ok hkey hparse
      have hrun : (new opts).run env fuel w = (new opts).runLoop env fuel w := by
        rw [Client.run, hnew]
      rw [hrun] at hn ⊢
      obtain ⟨r, hr, hloop⟩ := (new opts).explains_runLoop env fuel w n hn
      rw [Client.dispatched_readLoop] at hloop
      obtain ⟨⟨h, body⟩, hf, hframe⟩ := List.mem_flatMap.mp hloop
      obtain ⟨before, after, hframes⟩ := List.append_of_mem hf
      obtain ⟨rest, hdata⟩ := data_eq_of_readFrames hframes
      have hverifier : (new opts).verifier = some ⟨some key, opts.verifyRequired⟩ := by rw [hnew]
      have hopts : (new opts).opts.verifyRequired = true := by rw [hnew]; exact hrequired
      exact ⟨key, rfl, r, hr, before, h, body, after, rest, hframes, hdata,
        Client.mem_handleFrame hverifier hopts hframe⟩
  · have hinit : (new opts).initErr = some err := by rw [new_of_error hkey hparse]
    exact ⟨by rw [Client.run, hinit], Client.connect_of_initErr hinit env w⟩

end

/-- A signature scheme for one key, the byte 1: a signature starts with the number of bytes. -/
@[reducible] def lengthCrypto : Crypto where
  Key := Unit
  pemDecode _ := none
  base64Decode _ := none
  parsePKIXPublicKey der := if der = [1] then some (some ()) else none
  parsePKCS1PublicKey _ := none
  sha1 body := [UInt8.ofNat body.length]
  verifyPKCS1v15 _ sum sig := if sum <+: sig then none else some []

/-- The header of a push frame with this body and signed in that scheme. -/
def signedHeader (body : Bytes) : Header :=
  sentHeader { unsignedHeader with
    bodySHA1 := ⟨UInt8.ofNat body.length :: List.replicate (bodySHA1Len - 1) 0, rfl⟩ } body

/-- A stream of two push frames with the same body, and only the second one is signed. -/
def signedFrames (body : Bytes) : List (Header × Bytes) :=
  [(sentHeader unsignedHeader body, body), (signedHeader body, body)]

/-- A world with one connection; the client is closed when that ends. -/
def oneConn (r : Reader) : Env Bool where
  closed w := (w, w)
  ctxErr w := (w, none)
  currentConn w := (w, some r)
  dial w := (w, .error .canceled)
  setConn _ w := w
  closeConn _ := true
  discard _ w := w
  sleepCtx w := (w, false)
  fireOnReconnect _ w := w

/-- The stream of a ticker, twice. -/
def tickerStream : Reader := ⟨encodeFrames (signedFrames (tickerBody oneAndAHalf)), none⟩

/-- A run on that stream by a client that requires signatures. -/
def tickerRun : Bool × Effects × Outcome :=
  @Client.run lengthCrypto Bool tickerProtobuf (@new lengthCrypto asciiTables ⟨[1], true⟩)
    (oneConn tickerStream) 1 false

theorem dispatched_tickerRun :
    tickerRun.2.1.dispatched = [tickerNotification oneAndAHalf] := by
  have hreadable : ∀ f ∈ signedFrames (tickerBody oneAndAHalf), Readable f.1 f.2 :=
    List.forall_mem_cons.mpr ⟨⟨rfl, by decide +kernel, by decide +kernel, rfl⟩,
      List.forall_mem_singleton.mpr ⟨rfl, by decide +kernel, by decide +kernel, rfl⟩⟩
  have hloop : tickerRun.2.1.dispatched =
      (@Client.readLoop lengthCrypto tickerProtobuf (@new lengthCrypto asciiTables ⟨[1], true⟩)
        tickerStream).1.dispatched ++ [] := rfl
  rw [hloop, List.append_nil, @Client.dispatched_readLoop lengthCrypto tickerProtobuf,
    tickerStream, readFrames_encodeFrames hreadable]
  decide +kernel

theorem verification_enforced_ticker :
    (∃ key, @parsePublicKey lengthCrypto asciiTables [1] = .ok key ∧
      ∃ r ∈ tickerRun.2.1.read, ∃ before h body after rest,
        (readFrames r).1 = before ++ (h, body) :: after ∧
        r.data = encodeFrames before ++ encodeFrame h body ++ rest ∧
        h.msgType = msgPush ∧ @Signed lengthCrypto key h body ∧
        @decodeNotification tickerProtobuf body = .ok (tickerNotification oneAndAHalf)) ∧
    @Client.run lengthCrypto Bool tickerProtobuf (@new lengthCrypto asciiTables ⟨[2], true⟩)
        (oneConn tickerStream) 1 false =
      (false, {}, .returned (some (.verify (.unsupportedKey
        (bytes "not a PEM PUBLIC KEY block, base64 SPKI, or SPKI DER"))))) := by
  have hmem : tickerNotification oneAndAHalf ∈ tickerRun.2.1.dispatched := by
    rw [dispatched_tickerRun]
    exact List.mem_singleton_self _
  refine ⟨?_, ?_⟩
  · exact (@verification_enforced lengthCrypto asciiTables tickerProtobuf ⟨[1], true⟩
      (by decide) rfl).1 Bool (oneConn tickerStream) 1 false _ hmem
  · exact ((@verification_enforced lengthCrypto asciiTables tickerProtobuf ⟨[2], true⟩
      (by decide) rfl).2 _ rfl Bool (oneConn tickerStream) 1 false).1

end HstongApi.PushVerify
