import MuduoChat.Presence.Directory

/-!
# The presence directory on Redis

The second adapter keeps each entry under a key of a Redis server, as a JSON object of four texts,
and draws the epochs from a counter.  A claim, a renewal and a release are scripts that the server
runs in one step.  The keys carry an expiry, so an entry whose lease has run out is also removed
by the server.

The numbers of the scripts, their JSON library and the moment at which the server removes a key are
those of an engine of which only some laws are known (`RedisEngine`).
-/

namespace MuduoChat

open Std

/-! ### Texts of numbers -/

/-- The number at the front of a text. -/
def decimalPrefix (cs : List Char) : ℕ := Nat.ofDigitChars 10 (cs.takeWhile Char.isDigit) 0

/-- The blanks of C: the space, and the tab, the line feed, the vertical tab, the form feed and the
carriage return. -/
def isspace (c : Char) : Bool := c = ' ' || 9 ≤ c.toNat && c.toNat ≤ 13

/-- The function `strtoull` with base ten, as an unsigned number of 64 bits.  A number that is too
large is the greatest one, with a minus before it as well. -/
def toU64 (s : String) : UInt64 :=
  match s.toList.dropWhile isspace with
  | '-' :: cs => if decimalPrefix cs < 2 ^ 64 then -UInt64.ofNat (decimalPrefix cs) else -1
  | '+' :: cs => UInt64.ofNat (min (decimalPrefix cs) (2 ^ 64 - 1))
  | cs => UInt64.ofNat (min (decimalPrefix cs) (2 ^ 64 - 1))

/-- The function `strtoll` with base ten. -/
def toI64 (s : String) : ℤ :=
  match s.toList.dropWhile isspace with
  | '-' :: cs => max (-decimalPrefix cs) (-2 ^ 63)
  | '+' :: cs => min (decimalPrefix cs) (2 ^ 63 - 1)
  | cs => min (decimalPrefix cs) (2 ^ 63 - 1)

/-! ### The server -/

/-- The JSON object that is stored for a user. -/
structure PresenceValue where
  g : String
  c : String
  e : String
  x : String
  deriving DecidableEq, Repr

/-- What is known of the numbers of the scripts, of the JSON libraries on both sides, and of
the time at which keys are removed. -/
structure RedisEngine where
  /-- The number that stands for an integer. -/
  number : ℤ → ℤ
  number_exact : ∀ n, |n| ≤ 2 ^ 53 → number n = n
  number_mono : Monotone number
  /-- How a number is printed. -/
  tostring : ℤ → String
  tostring_exact : ∀ n, |n| < 10 ^ 14 → tostring n = toString n
  /-- How a number is read.  A text that is no number is read as nil. -/
  tonumber : String → Option ℤ
  tonumber_toString : ∀ n : ℤ, tonumber (toString n) = some (number n)
  encode : PresenceValue → String
  decode : String → Option PresenceValue
  decode_encode : ∀ v, decode (encode v) = some v
  /-- How the adapter reads a value. -/
  parse : String → Option PresenceValue
  parse_encode : ∀ v, parse (encode v) = some v
  /-- Whether a key with a deadline has been removed at a time. -/
  gone : ℤ → ℤ → Bool
  gone_of_lt : ∀ deadline now, deadline < now → gone deadline now = true
  not_gone_of_lt : ∀ deadline now, now < deadline → gone deadline now = false

structure RedisKey where
  value : String
  deadline : Option ℤ := none
  deriving DecidableEq, Repr

/-- The keys of the server.  A key that has been removed at its deadline may still stand here, but
no command sees it. -/
structure RedisStore where
  keys : TreeMap String RedisKey := ∅

inductive RedisReply where
  | integer (n : ℤ)
  | array (items : List ℤ)
  | bulk (text : String)
  | nil
  | error
  deriving DecidableEq, Repr

namespace RedisEngine

variable (R : RedisEngine) (clock : ℤ) (s : RedisStore)

/-- The key as the commands see it. -/
def find (key : String) : Option RedisKey :=
  s.keys[key]?.filter fun k => !(k.deadline.any (R.gone · clock))

def get (key : String) : Option String := (R.find clock s key).map RedisKey.value

/-- A value that is set has no deadline. -/
def set (s : RedisStore) (key value : String) : RedisStore :=
  { s with keys := s.keys.insert key ⟨value, none⟩ }

def del (s : RedisStore) (key : String) : RedisStore := { s with keys := s.keys.erase key }

def pexpire (key : String) (ttl : ℤ) : RedisStore :=
  match R.find clock s key with
  | none => s
  | some k =>
    if ttl ≤ 0 then del s key
    else { s with keys := s.keys.insert key { k with deadline := some (clock + ttl) } }

/-- Add one to a number.  It is an error if the value is no number. -/
def incr (key : String) : Option (ℤ × RedisStore) :=
  match R.find clock s key with
  | none => some (1, { s with keys := s.keys.insert key ⟨toString (1 : ℤ), none⟩ })
  | some k => k.value.toInt?.map fun n =>
    (n + 1, { s with keys := s.keys.insert key { k with value := toString (n + 1) } })

/-! ### The scripts -/

def claimScript (entryKey counterKey argNow argTtl argGateway argConn : String) :
    RedisReply × RedisStore :=
  match R.incr clock s counterKey with
  | none => (.error, s)
  | some (n, s) =>
    match R.tonumber argNow, R.tonumber argTtl with
    | some now, some ttl =>
      let e := R.number n
      let v := R.encode ⟨argGateway, argConn, R.tostring e, R.tostring (R.number (now + ttl))⟩
      (.integer e, R.pexpire clock (set s entryKey v) entryKey ttl)
    | _, _ => (.error, s)

/-- What the scripts of renewal and release find: a reply if they are to end here, or the entry
and the time. -/
def checkScript (entryKey argNow argEpoch : String) : RedisReply ⊕ (PresenceValue × ℤ) :=
  match R.get clock s entryKey with
  | none => .inl (.array [0])
  | some old =>
    match R.decode old, R.tonumber argNow with
    | some o, some now =>
      match R.tonumber o.x with
      | none => .inl .error
      | some x =>
        if x ≤ now then .inl (.array [0])
        else if R.tonumber o.e ≠ R.tonumber argEpoch then .inl (.array [2])
        else .inr (o, now)
    | _, _ => .inl .error

def renewScript (entryKey argNow argEpoch argTtl : String) : RedisReply × RedisStore :=
  match R.checkScript clock s entryKey argNow argEpoch with
  | .inl reply => (reply, s)
  | .inr (o, now) =>
    match R.tonumber argTtl with
    | none => (.error, s)
    | some ttl =>
      let x := R.number (now + ttl)
      let v := R.encode { o with x := R.tostring x }
      (.array [1, x], R.pexpire clock (set s entryKey v) entryKey ttl)

def releaseScript (entryKey argNow argEpoch : String) : RedisReply × RedisStore :=
  match R.checkScript clock s entryKey argNow argEpoch with
  | .inl reply => (reply, s)
  | .inr _ => (.array [1], del s entryKey)

end RedisEngine

/-! ### The adapter -/

/-- The adapter, with the store of the server it talks to. -/
structure RedisPresenceDirectory where
  ttlMs : ℤ
  store : RedisStore := {}

namespace RedisPresenceDirectory

def keyFor (user : UserId) : String := "presence:v1:" ++ toString user.value

def epochKey : String := "presence:v1:epoch"

variable (R : RedisEngine) (d : RedisPresenceDirectory) (now : ℤ)

def claim (user : UserId) (gateway : GatewayId) (conn : ConnectionId) :
    ClaimResult × RedisPresenceDirectory :=
  let (reply, store) := R.claimScript now d.store (keyFor user) epochKey (toString now)
    (toString d.ttlMs) (toString gateway.value.toNat) (toString conn.value.toNat)
  match reply with
  | .integer n => ({ ok := true, epoch := ⟨(n % 2 ^ 64).toNat⟩ }, { d with store := store })
  | _ => ({ error := .dependencyUnavailable }, { d with store := store })

/-- The error for a status other than one. -/
def statusError (status : ℤ) : PresenceError := if status = 2 then .notEpoch else .notFound

def renew (user : UserId) (_gateway : GatewayId) (_conn : ConnectionId) (epoch : SessionEpoch) :
    RenewResult × RedisPresenceDirectory :=
  let (reply, store) := R.renewScript now d.store (keyFor user) (toString now)
    (toString epoch.value) (toString d.ttlMs)
  match reply with
  | .array (status :: rest) =>
    if status = 1 then
      ({ ok := true, expiresAtMs := rest.head?.getD 0 }, { d with store := store })
    else ({ error := statusError status }, { d with store := store })
  | _ => ({ error := .dependencyUnavailable }, { d with store := store })

def release (user : UserId) (_gateway : GatewayId) (_conn : ConnectionId) (epoch : SessionEpoch) :
    ReleaseResult × RedisPresenceDirectory :=
  let (reply, store) := R.releaseScript now d.store (keyFor user) (toString now)
    (toString epoch.value)
  match reply with
  | .array (status :: _) =>
    if status = 1 then ({ ok := true }, { d with store := store })
    else ({ error := statusError status }, { d with store := store })
  | _ => ({ error := .dependencyUnavailable }, { d with store := store })

def locate (user : UserId) : LocateResult :=
  match R.get now d.store (keyFor user) with
  | none => { error := .notFound }
  | some text =>
    match R.parse text with
    | none => { error := .dependencyUnavailable }
    | some v =>
      if toI64 v.x ≤ now then { expired := true, error := .notFound }
      else
        { ok := true
          route := ⟨user, ⟨toU64 v.g⟩, ⟨toU64 v.c⟩, ⟨(toU64 v.e).toNat⟩⟩ }

def perform : (call : PresenceCall) → call.Result × RedisPresenceDirectory
  | .claim user gateway conn => d.claim R now user gateway conn
  | .renew user gateway conn epoch => d.renew R now user gateway conn epoch
  | .release user gateway conn epoch => d.release R now user gateway conn epoch
  | .locate user => (d.locate R now user, d)

end RedisPresenceDirectory

end MuduoChat
