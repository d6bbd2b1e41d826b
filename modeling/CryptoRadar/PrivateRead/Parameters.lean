import CryptoRadar.Lib.Checked
import CryptoRadar.Lib.JsonText

/-!
# Endpoints and parameters of the private reader

`adapters/kraken_private_read.py`: a call names one of six endpoints, and gives parameters that
are each checked by the validator of their name. What is refused raises before anything is
reserved or posted. What is accepted is a list of names and texts in sorted order.
-/

set_option autoImplicit false

namespace CryptoRadar.PrivateRead

open Checked

/-- The endpoints that may be read. -/
inductive ReadEndpoint where
  | balance
  | tradeBalance
  | tradeVolume
  | openOrders
  | closedOrders
  | queryOrders
  deriving DecidableEq, Repr

namespace ReadEndpoint

/-- The name of an endpoint in its path. -/
def text : ReadEndpoint → String
  | .balance => "Balance"
  | .tradeBalance => "TradeBalance"
  | .tradeVolume => "TradeVolume"
  | .openOrders => "OpenOrders"
  | .closedOrders => "ClosedOrders"
  | .queryOrders => "QueryOrders"

/-- The endpoints in the order of `ReadEndpoint`. -/
def members : List ReadEndpoint :=
  [.balance, .tradeBalance, .tradeVolume, .openOrders, .closedOrders, .queryOrders]

end ReadEndpoint

/-! ## Errors -/

/-- The codes of a `KrakenReadError`. -/
inductive ReadErrorCode where
  | modeRefused
  | unavailable
  | endpointRefused
  | parameterRefused
  | invalidKey
  | invalidSignature
  | invalidNonce
  | permissionDenied
  | locked
  | rateLimited
  | serviceUnavailable
  | exchangeError
  | httpStatus
  | redirectRefused
  | notJson
  | timeout
  | transportFailed
  | tooLarge
  | malformedResponse
  deriving DecidableEq, Repr

namespace ReadErrorCode

/-- The text of a code. -/
def text : ReadErrorCode → String
  | .modeRefused => "MODE_REFUSED"
  | .unavailable => "UNAVAILABLE"
  | .endpointRefused => "ENDPOINT_REFUSED"
  | .parameterRefused => "PARAMETER_REFUSED"
  | .invalidKey => "INVALID_KEY"
  | .invalidSignature => "INVALID_SIGNATURE"
  | .invalidNonce => "INVALID_NONCE"
  | .permissionDenied => "PERMISSION_DENIED"
  | .locked => "LOCKED"
  | .rateLimited => "RATE_LIMITED"
  | .serviceUnavailable => "SERVICE_UNAVAILABLE"
  | .exchangeError => "EXCHANGE_ERROR"
  | .httpStatus => "HTTP_STATUS"
  | .redirectRefused => "REDIRECT_REFUSED"
  | .notJson => "NOT_JSON"
  | .timeout => "TIMEOUT"
  | .transportFailed => "TRANSPORT_FAILED"
  | .tooLarge => "TOO_LARGE"
  | .malformedResponse => "MALFORMED_RESPONSE"

/-- `AUTH_ERROR_CODES`. -/
def isAuthError : ReadErrorCode → Bool
  | .invalidKey | .invalidSignature | .invalidNonce | .permissionDenied => true
  | _ => false

end ReadErrorCode

/-- What a call raises: a `KrakenReadError`, or a `TypeError` of Python. -/
inductive ReadFailure where
  | read (code : ReadErrorCode) (endpoint : Option ReadEndpoint) (reason : Option String)
      (httpStatus : Option ℤ)
  | type
  deriving DecidableEq, Repr

/-- A parameter of an endpoint is refused. -/
def parameterRefused (endpoint : ReadEndpoint) (reason : String) : ReadFailure :=
  .read .parameterRefused (some endpoint) (some reason) none

/-! ## Endpoints -/

/-- What a caller gives as an endpoint. -/
inductive EndpointName where
  | member (endpoint : ReadEndpoint)
  | str (text : PyStr)
  | other

/-- `resolve_endpoint`. -/
def resolveEndpoint : EndpointName → Except ReadFailure ReadEndpoint
  | .member endpoint => .ok endpoint
  | .str text =>
      require (.read .endpointRefused none (some "endpoint_not_allowlisted") none)
        (ReadEndpoint.members.find? fun endpoint => pyStr endpoint.text = text)
  | .other => .error (.read .endpointRefused none (some "endpoint_not_allowlisted") none)

/-! ## Values -/

/-- An item of a sequence: text, or something else that has a hash or none. -/
inductive Item where
  | str (text : PyStr)
  | other (hashable : Bool)

/-- What a caller gives as a value: a tuple and a list are a sequence. -/
inductive Value where
  | bool (value : Bool)
  | int (number : ℤ)
  | str (text : PyStr)
  | sequence (items : List Item)
  | other

/-- `[A-Z]`. -/
def isUpper (code : ℕ) : Bool := 65 ≤ code && code ≤ 90

/-- `[A-Za-z0-9]`. -/
def isAlnum (code : ℕ) : Bool :=
  JsonText.isDigit code || isUpper code || (97 ≤ code && code ≤ 122)

/-- A text of characters of one class, with a least and a most length. -/
def ofClass (isMember : ℕ → Bool) (least most : ℕ) (text : PyStr) : Bool :=
  least ≤ text.length && text.length ≤ most && text.all isMember

/-- `_ASSET`. -/
def isAsset : PyStr → Bool := ofClass (fun code => isAlnum code || code = 46) 1 16

/-- `_PAIR_LIST`: up to twenty pairs with commas between them. -/
def isPairList (text : PyStr) : Bool :=
  let pairs := text.splitOn 44
  pairs.length ≤ 20 && pairs.all (ofClass (fun code => isAlnum code || code = 46 || code = 47) 2 32)

/-- `_CL_ORD_ID`. -/
def isClOrdId : PyStr → Bool := ofClass (fun code => isAlnum code || code = 45) 1 64

/-- `_TXID`: three groups of upper case letters and digits. -/
def isTxid (text : PyStr) : Bool :=
  match text.splitOn 45 with
  | [first, second, third] =>
      let isMember (code : ℕ) : Bool := JsonText.isDigit code || isUpper code
      ofClass isMember 6 6 first && ofClass isMember 5 5 second && ofClass isMember 6 6 third
  | _ => false

/-- `str` of an integer. -/
def intText (number : ℤ) : PyStr :=
  if number < 0 then 45 :: JsonText.decimal number.natAbs else JsonText.decimal number.natAbs

/-- A validator: the text of a value, none where it is refused. -/
abbrev Validator := Value → Except ReadFailure (Option PyStr)

/-- `_param_bool`. -/
def paramBool : Validator
  | .bool value => .ok (some (pyStr (if value then "true" else "false")))
  | _ => .ok none

/-- An integer in a range. -/
def paramInt (least most : ℤ) : Validator
  | .int number => .ok (if least ≤ number ∧ number ≤ most then some (intText number) else none)
  | _ => .ok none

/-- `_param_userref`: 32 bits with a sign. -/
def paramUserref : Validator := paramInt (-2 ^ 31) (2 ^ 31 - 1)

/-- A text that matches a pattern. -/
def paramPattern (pattern : PyStr → Bool) : Validator
  | .str text => .ok (if pattern text then some text else none)
  | _ => .ok none

/-- `_param_time`: seconds, or the id of a transaction. -/
def paramTime : Validator
  | .int number => paramInt 0 (10 ^ 11) (.int number)
  | value => paramPattern isTxid value

/-- `_param_offset`. -/
def paramOffset : Validator := paramInt 0 (10 ^ 9)

/-- `_param_closetime`. -/
def paramClosetime : Validator :=
  paramPattern fun text => ["open", "close", "both"].any fun known => pyStr known = text

/-- `MAX_QUERY_TXIDS`. -/
def maxQueryTxids : ℕ := 50

/-- The text of an item, if it is one. -/
def Item.text? : Item → Option PyStr
  | .str text => some text
  | .other _ => none

/-- A set can hold the item. -/
def Item.hashable : Item → Bool
  | .str _ => true
  | .other hashable => hashable

/-- `_param_txids`: the set of the items is made first, and raises where one has no hash. -/
def paramTxids : Validator
  | .sequence items => do
      if ¬ (1 ≤ items.length ∧ items.length ≤ maxQueryTxids) then return none
      ensure (items.all Item.hashable) .type
      return (items.mapM Item.text?).bind fun texts =>
        if texts.Nodup ∧ texts.all isTxid then some (JsonText.joined [44] texts) else none
  | _ => .ok none

/-! ## Parameters -/

/-- The parameters that both lists of orders allow. -/
def orderFilters : List (String × Validator) :=
  [("trades", paramBool), ("userref", paramUserref), ("cl_ord_id", paramPattern isClOrdId)]

/-- `PARAMETER_ALLOWLIST`. -/
def parameterAllowlist : ReadEndpoint → List (String × Validator)
  | .balance => []
  | .tradeBalance => [("asset", paramPattern isAsset)]
  | .tradeVolume => [("pair", paramPattern isPairList)]
  | .openOrders => orderFilters
  | .closedOrders => orderFilters ++ [("start", paramTime), ("end", paramTime),
      ("ofs", paramOffset), ("closetime", paramClosetime)]
  | .queryOrders => [("txid", paramTxids), ("trades", paramBool), ("userref", paramUserref)]

/-- `_REQUIRED_PARAMETERS`. -/
def requiredParameters : ReadEndpoint → List String
  | .queryOrders => ["txid"]
  | _ => []

/-- The name of a parameter; a key that is no text has one as well. -/
inductive Name where
  | str (text : PyStr)
  | other (text : PyStr)

/-- The text that `str` makes of a name. -/
def Name.text : Name → PyStr
  | .str text => text
  | .other text => text

/-- What a caller gives as parameters. -/
inductive Parameters where
  | absent
  | mapping (given : List (Name × Value))
  | other

/-- Parameters are encoded in the order of their names. -/
def byName (first second : Name × Value) : Prop := first.1.text ≤ second.1.text

instance : DecidableRel byName := fun _ _ => inferInstanceAs (Decidable (_ ≤ _))

/-- The validator of a parameter, if the endpoint allows it. -/
def validator? (endpoint : ReadEndpoint) : Name → Option Validator
  | .str text =>
      ((parameterAllowlist endpoint).find? fun known => pyStr known.1 = text).map Prod.snd
  | .other _ => none

/-- A parameter that its validator accepts, as texts. -/
def encodeParameter (endpoint : ReadEndpoint) (given : Name × Value) :
    Except ReadFailure (PyStr × PyStr) := do
  let validator ← require (parameterRefused endpoint "parameter_not_allowlisted")
    (validator? endpoint given.1)
  let value ← validator given.2
  let text ← require (parameterRefused endpoint "parameter_value_invalid") value
  return (given.1.text, text)

/-- `encode_parameters`. -/
def encodeParameters (endpoint : ReadEndpoint) (parameters : Parameters) :
    Except ReadFailure (List (PyStr × PyStr)) := do
  let given ← match parameters with
    | .absent => .ok []
    | .mapping given => .ok given
    | .other => .error (parameterRefused endpoint "parameters_not_a_mapping")
  let encoded ← (given.insertionSort byName).mapM (encodeParameter endpoint)
  ensure (∀ name ∈ requiredParameters endpoint, pyStr name ∈ encoded.map Prod.fst)
    (parameterRefused endpoint "parameter_required")
  return encoded

/-- A character that `urlencode` leaves as it is. -/
def isSafe (code : ℕ) : Bool :=
  isAlnum code || code = 45 || code = 46 || code = 95 || code = 126

/-- A digit of a percent escape. -/
def hexUpper (digit : ℕ) : ℕ := if digit < 10 then 48 + digit else 55 + digit

/-- `quote_plus` of a text of one byte characters. -/
def quotePlus (text : PyStr) : PyStr :=
  text.flatMap fun code =>
    if code = 32 then [43]
    else if isSafe code then [code]
    else [37, hexUpper (code / 16 % 16), hexUpper (code % 16)]

/-- `urlencode`. -/
def urlencode (fields : List (PyStr × PyStr)) : PyStr :=
  JsonText.joined [38] (fields.map fun field => quotePlus field.1 ++ 61 :: quotePlus field.2)

end CryptoRadar.PrivateRead
