import CryptoRadar.Lib.Decimal
import CryptoRadar.Lib.Machine
import CryptoRadar.Lib.Moment
import CryptoRadar.PrivateRead.Parameters

/-!
# The private reader and its nonces

`NonceStore` and `KrakenPrivateReader` of `adapters/kraken_private_read.py`, as a machine whose
inputs are single steps: of a call, in any interleaving with the other calls of the reader; of the
process, which may end between any two steps; and the opening of a reader where none is alive.

A call that passed its checks waits for the lock of the requests, and holds it while it reserves a
nonce (reads the file, reads the clock, writes a temporary file, replaces the file), posts, and
judges the reply. What a step meets outside is its turn: an error of the file system, the clock,
what the transport returns. The headers with the signature, computed between the reservation and the
post, and the typed results, parsed after the lock is released, are left out.
-/

set_option autoImplicit false

namespace CryptoRadar.PrivateRead

open Checked Runs

/-! ## Nonces -/

/-- Why the nonce store is unavailable. -/
inductive UnavailableReason where
  | nonceStoreCorrupt
  | nonceStoreUnreadable
  | nonceStoreUnwritable
  | clockInvalid
  deriving DecidableEq, Repr

def UnavailableReason.text : UnavailableReason → String
  | .nonceStoreCorrupt => "nonce_store_corrupt"
  | .nonceStoreUnreadable => "nonce_store_unreadable"
  | .nonceStoreUnwritable => "nonce_store_unwritable"
  | .clockInvalid => "clock_invalid"

/-- `_MAX_NONCE`. -/
def maxNonce : ℕ := 2 ^ 63 - 1

/-- The text without one line end at its end. -/
def withoutLineEnd (text : PyStr) : PyStr :=
  if text.getLast? = some 10 then text.dropLast else text

/-- `last` of a file that was read: none where there is no file. -/
def lastOf : Option Bytes → Except UnavailableReason (Option ℕ)
  | none => .ok none
  | some bytes => do
      let digits := withoutLineEnd (bytes.map UInt8.toNat)
      ensure (1 ≤ digits.length ∧ digits.length ≤ 19 ∧ digits.all JsonText.isDigit)
        .nonceStoreCorrupt
      let value := JsonText.naturalOf digits
      ensure (value ≤ maxNonce) .nonceStoreCorrupt
      return some value

/-- What `_write` writes. -/
def fileText (value : ℕ) : Bytes := (JsonText.decimal value ++ [10]).map UInt8.ofNat

/-- `_now_ms`; a moment before the epoch counts as the epoch, which no nonce is below. -/
def nowMs (moment : Moment) : ℕ := (moment.micros / 1000).toNat

/-- The value `reserve` writes. -/
def nextNonce (last : Option ℕ) (now : Moment) : ℕ := max (last.getD 0 + 1) (nowMs now)

/-! ## Replies -/

/-- The kinds of a transport failure. -/
inductive TransportFailureKind where
  | timeout
  | connection
  | tooLarge
  | refused

/-- A reply of the transport. -/
structure TransportReply where
  status : ℤ
  body : Bytes
  redirected : Bool

/-- What a call of the transport comes to. -/
inductive Transported where
  | failure (kind : TransportFailureKind)
  | raised
  | noReply
  | reply (reply : TransportReply)

/-- Why a body is no document. -/
inductive BodyProblem where
  | badJson
  | malformed

/-- The decoder of bodies: `json.loads` with decimals, without constants and repeated keys. -/
structure Decoder where
  decodeBody : Bytes → Except BodyProblem (Json Decimal)

/-- `_KRAKEN_ERRORS`. -/
def krakenErrors : List (String × ReadErrorCode) :=
  [("EAPI:Invalid key", .invalidKey), ("EAPI:Invalid signature", .invalidSignature),
    ("EAPI:Invalid nonce", .invalidNonce), ("EGeneral:Permission denied", .permissionDenied),
    ("EAPI:Rate limit exceeded", .rateLimited), ("EGeneral:Too many requests", .rateLimited),
    ("EService:Unavailable", .serviceUnavailable), ("EService:Busy", .serviceUnavailable)]

/-- `_ERROR_PRECEDENCE`. -/
def errorPrecedence : List ReadErrorCode :=
  [.invalidKey, .invalidSignature, .invalidNonce, .permissionDenied, .rateLimited,
    .serviceUnavailable, .exchangeError]

/-- `_TRANSPORT_CODES`. -/
def transportCode : TransportFailureKind → ReadErrorCode
  | .timeout => .timeout
  | .connection => .transportFailed
  | .tooLarge => .tooLarge
  | .refused => .transportFailed

/-- The code of one entry of the error list; a warning has none. -/
def errorCode? : Json Decimal → Option ReadErrorCode
  | .str text =>
      if pyStr "W" <+: text then none
      else some (((krakenErrors.find? fun known => pyStr known.1 = text).map Prod.snd).getD
        .exchangeError)
  | _ => some .exchangeError

/-- `classify_kraken_errors`. -/
def classifyKrakenErrors (errors : List (Json Decimal)) : Option ReadErrorCode :=
  let found := errors.filterMap errorCode?
  errorPrecedence.find? (· ∈ found)

/-- The value of a key. -/
def member? (members : List (PyStr × Json Decimal)) (key : String) : Option (Json Decimal) :=
  Dict.get? members (pyStr key)

/-- The document of a reply, or what `_send` raises. -/
def resultOf (decoder : Decoder) (endpoint : ReadEndpoint) (transported : Transported) :
    Except ReadFailure (Json Decimal) := do
  let raised (code : ReadErrorCode) (httpStatus : Option ℤ) : ReadFailure :=
    .read code (some endpoint) none httpStatus
  let reply ← match transported with
    | .failure kind => .error (raised (transportCode kind) none)
    | .raised => .error (raised .transportFailed none)
    | .noReply => .error (raised .transportFailed none)
    | .reply reply => .ok reply
  ensure (¬ (reply.redirected ∨ (300 ≤ reply.status ∧ reply.status < 400)))
    (raised .redirectRefused (some reply.status))
  ensure (reply.status = 200) (raised .httpStatus (some reply.status))
  let document ← (decoder.decodeBody reply.body).mapError fun
    | .badJson => raised .notJson none
    | .malformed => raised .malformedResponse none
  match document with
  | .object members =>
      match member? members "error" with
      | some (.array errors) =>
          match classifyKrakenErrors errors with
          | some code => .error (raised code none)
          | none => return (member? members "result").getD .null
      | _ => .error (raised .malformedResponse none)
  | _ => .error (raised .malformedResponse none)

/-- The code a result locks the reader by. -/
def lockingCode : Except ReadFailure (Json Decimal) → Option ReadErrorCode
  | .error (.read code _ _ _) => if code.isAuthError then some code else none
  | _ => none

/-! ## Calls -/

/-- What a call asks for, once its checks are passed. -/
structure Call where
  endpoint : ReadEndpoint
  encoded : List (PyStr × PyStr)

/-- Where a call stands. From `reading` to `posted` it holds the lock of the requests. -/
inductive Stage where
  | waiting
  | reading
  | stamping (last : Option ℕ)
  | writing (value : ℕ)
  | replacing (value : ℕ)
  | reserved (value : ℕ)
  | posted (value : ℕ)
  | ended

/-- What is posted. -/
structure Request where
  endpoint : ReadEndpoint
  nonce : ℕ
  postdata : PyStr

/-- The request of a call with a nonce. -/
def requestOf (call : Call) (nonce : ℕ) : Request where
  endpoint := call.endpoint
  nonce := nonce
  postdata := urlencode ((pyStr "nonce", JsonText.decimal nonce) :: call.encoded)

/-- A reader: the code it is locked by and the owner of its store. -/
structure Reader where
  lockedBy : Option ReadErrorCode
  owner : Option ℕ

/-- The file, the reader that is alive, its calls, and how many calls and readers there were. -/
structure World where
  file : Option Bytes
  reader : Option Reader
  calls : ℕ → Option (Call × Stage)
  issued : ℕ
  opened : ℕ

/-- A state directory as it is found. -/
def World.found (file : Option Bytes) : World := ⟨file, none, fun _ => none, 0, 0⟩

/-- What a step of a call meets: an error of the file system or none, a time of the clock, which is
none where it is no aware time, and what the transport returned. -/
inductive Turn where
  | fails
  | runs
  | clock (now : Option Moment)
  | transported (outcome : Transported)

/-- What happens to the system. -/
inductive Input where
  | opens
  | crash
  | call (endpoint : EndpointName) (parameters : Parameters)
  | advance (id : ℕ) (turn : Turn)

/-- What a step shows: a call that was refused, or found the reader locked, or could not reserve; a
request that was posted; what a reply was judged as. -/
inductive Event where
  | quiet
  | refused (id : ℕ) (failure : ReadFailure)
  | locked (id : ℕ) (failure : ReadFailure)
  | unavailable (id : ℕ) (failure : ReadFailure)
  | posted (id : ℕ) (request : Request)
  | judged (id : ℕ) (result : Except ReadFailure (Json Decimal))

namespace World

variable (decoder : Decoder) (world : World)

/-- The call `id` stands at `stage`. -/
def stands (id : ℕ) (call : Call) (stage : Stage) : World :=
  { world with calls := Function.update world.calls id (some (call, stage)) }

/-- The call `id` ends, and releases the lock. -/
def release (reader : Reader) (lockedBy : Option ReadErrorCode) (id : ℕ) (call : Call) : World :=
  { world with
    reader := some { reader with lockedBy := lockedBy, owner := none }
    calls := Function.update world.calls id (some (call, .ended)) }

/-- The reservation of the call `id` failed. -/
def failed (reader : Reader) (id : ℕ) (call : Call) (reason : UnavailableReason) : Event × World :=
  (.unavailable id (.read .unavailable (some call.endpoint) (some reason.text) none),
    world.release reader reader.lockedBy id call)

/-- One step of a call of the reader that is alive. -/
def advance (reader : Reader) (id : ℕ) (call : Call) (stage : Stage) (turn : Turn) :
    Event × World :=
  match stage, turn with
  | .waiting, .runs =>
      match reader.owner, reader.lockedBy with
      | some _, _ => (.quiet, world)
      | none, some code =>
          (.locked id (.read .locked (some call.endpoint) (some code.text) none),
            world.stands id call .ended)
      | none, none =>
          (.quiet, { world.stands id call .reading with reader := some { reader with owner := some id } })
  | .reading, .fails => world.failed reader id call .nonceStoreUnreadable
  | .reading, .runs =>
      match lastOf world.file with
      | .error reason => world.failed reader id call reason
      | .ok last => (.quiet, world.stands id call (.stamping last))
  | .stamping _, .clock none => world.failed reader id call .clockInvalid
  | .stamping last, .clock (some now) =>
      if maxNonce < nextNonce last now then world.failed reader id call .nonceStoreCorrupt
      else (.quiet, world.stands id call (.writing (nextNonce last now)))
  | .writing _, .fails => world.failed reader id call .nonceStoreUnwritable
  | .writing value, .runs => (.quiet, world.stands id call (.replacing value))
  | .replacing _, .fails => world.failed reader id call .nonceStoreUnwritable
  | .replacing value, .runs =>
      (.quiet, { world.stands id call (.reserved value) with file := some (fileText value) })
  | .reserved value, .runs =>
      (.posted id (requestOf call value), world.stands id call (.posted value))
  | .posted _, .transported outcome =>
      let result := resultOf decoder call.endpoint outcome
      (.judged id result,
        world.release reader ((lockingCode result).or reader.lockedBy) id call)
  | _, _ => (.quiet, world)

/-- `read` up to the lock of the requests. -/
def start (endpoint : EndpointName) (parameters : Parameters) : Event × World :=
  let id := world.issued
  let accepted : Except ReadFailure Call := do
    let allowed ← resolveEndpoint endpoint
    let encoded ← encodeParameters allowed parameters
    return ⟨allowed, encoded⟩
  match accepted with
  | .error failure => (.refused id failure, { world with issued := id + 1 })
  | .ok call => (.quiet, { world.stands id call .waiting with issued := id + 1 })

end World

/-- The machine of a state directory. -/
def machine (decoder : Decoder) : Machine World Input Event where
  step world
    | .opens =>
        match world.reader with
        | some _ => (.quiet, world)
        | none => (.quiet, { world with reader := some ⟨none, none⟩, opened := world.opened + 1 })
    | .crash => (.quiet, { world with reader := none, calls := fun _ => none })
    | .call endpoint parameters =>
        match world.reader with
        | none => (.quiet, world)
        | some _ => world.start endpoint parameters
    | .advance id turn =>
        match world.reader, world.calls id with
        | some reader, some (call, stage) => world.advance decoder reader id call stage turn
        | _, _ => (.quiet, world)

end CryptoRadar.PrivateRead
