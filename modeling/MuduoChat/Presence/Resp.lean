import MuduoChat.Presence.Adapters

/-!
# The connection to Redis

A command is sent, and one reply is read.  A reply is a line, a line and a string of the length that
stands in it, or a line and as many replies as it says.  Lines, strings, arrays and their nesting are
limited.  A failure while a reply is read becomes an error reply, and an error reply at the top
closes the connection.

What comes from the server is a list of arrivals: bytes, moments at which the connection waits and
goes on, and waits that run out.  At the end of the list the connection is down, so each further
read fails.
-/

namespace MuduoChat

namespace RedisConn

/-! ### Reading from the socket -/

/-- What a read meets: a byte, an interruption or a wait after which there is something to read, or
a wait that runs out. -/
inductive Arrival where
  | byte (b : UInt8)
  | pause
  | timeout
  deriving DecidableEq

/-- What is still to come. -/
abbrev Socket := List Arrival

def kMaxCmdArgs : ℕ := 64

def kMaxCmdArgBytes : ℕ := 2 ^ 20

def kMaxRespLineBytes : ℕ := 16 * 1024

def kMaxRespBulkBytes : ℕ := 64 * 1024

def kMaxRespArrayDepth : ℕ := 8

def kMaxRespArrayElements : ℕ := 4096

def bytesOf (s : String) : List UInt8 := s.toList.map fun c => UInt8.ofNat c.toNat

def recvByte : Socket → Option UInt8 × Socket
  | [] => (none, [])
  | .byte b :: s => (some b, s)
  | .pause :: s => recvByte s
  | .timeout :: s => (none, s)

/-- Read the rest of a line.  Carriage returns are dropped wherever they are. -/
def recvLine (line : List UInt8) : Socket → Option (List UInt8) × Socket
  | [] => (none, [])
  | .timeout :: s => (none, s)
  | .pause :: s => recvLine line s
  | .byte c :: s =>
    if c = 0x0A then (some line, s)
    else if c ≠ 0x0D then
      if line.length ≥ kMaxRespLineBytes then (none, s) else recvLine (line ++ [c]) s
    else recvLine line s

/-- Read a number of bytes. -/
def recvExact : ℕ → Socket → Option (List UInt8) × Socket
  | 0, s => (some [], s)
  | n + 1, s =>
    match recvByte s with
    | (none, s) => (none, s)
    | (some b, s) =>
      match recvExact n s with
      | (none, s) => (none, s)
      | (some data, s) => (some (b :: data), s)

/-- The function `strtoll` with base ten, on the bytes of a line. -/
def strtoll (line : List UInt8) : ℤ :=
  match (line.map fun b => Char.ofNat b.toNat).dropWhile fun c =>
      c ∈ [' ', '\t', '\n', '\x0b', '\x0c', '\r'] with
  | '-' :: cs => max (-decimalPrefix cs) (-2 ^ 63)
  | '+' :: cs => min (decimalPrefix cs) (2 ^ 63 - 1)
  | cs => min (decimalPrefix cs) (2 ^ 63 - 1)

/-! ### Replies -/

inductive Reply where
  | simple (str : List UInt8)
  | integer (n : ℤ)
  | bulk (str : List UInt8)
  | error (str : List UInt8)
  | nil
  | array (elements : List Reply)

def Reply.isError : Reply → Bool
  | .error _ => true
  | _ => false

/-- What the beginning of a reply comes to: a reply without elements, a failure, or the announcement
of a number of elements. -/
inductive Head where
  | whole (r : Reply)
  | failed (str : List UInt8)
  | elements (n : ℕ)

/-- What a line with a type byte in front of it comes to. -/
def parseLine (t : UInt8) (line : List UInt8) (s : Socket) : Head × Socket :=
  if t = 0x2B then (.whole (.simple line), s)
  else if t = 0x2D then (.whole (.error line), s)
  else if t = 0x3A then (.whole (.integer (strtoll line)), s)
  else if t = 0x24 then
    let len := strtoll line
    if len < 0 then (.whole .nil, s)
    else if len > kMaxRespBulkBytes then (.failed (bytesOf "reply too large"), s)
    else
      match recvExact len.toNat s with
      | (none, s) => (.failed (bytesOf "read failed"), s)
      | (some data, s) =>
        -- the two bytes behind the string are not looked at
        match recvExact 2 s with
        | (none, s) => (.failed (bytesOf "read failed"), s)
        | (some _, s) => (.whole (.bulk data), s)
  else
    let n := strtoll line
    if n < 0 then (.whole .nil, s) else (.elements n.toNat, s)

/-- The part of `parseReply` that is not about the elements of an array. -/
def parseHead (s : Socket) : Head × Socket :=
  match recvByte s with
  | (none, s) => (.failed (bytesOf "read failed"), s)
  | (some t, s) =>
    if t ∈ [0x2B, 0x2D, 0x3A, 0x24, 0x2A] then
      match recvLine [] s with
      | (none, s) => (.failed (bytesOf "read failed"), s)
      | (some line, s) => parseLine t line s
    else (.failed (bytesOf "protocol error"), s)

/-- Read a number of replies, whatever they are. -/
def parseElements (parse : Socket → Reply × Socket) : ℕ → Socket → List Reply × Socket
  | 0, s => ([], s)
  | n + 1, s =>
    let (r, s) := parse s
    let (rs, s) := parseElements parse n s
    (r :: rs, s)

/-- Read a reply.  The number says how many arrays may still be opened, that is, how far the depth
is from its limit. -/
def parseReply (levels : ℕ) (s : Socket) : Reply × Socket :=
  match parseHead s with
  | (.whole r, s) => (r, s)
  | (.failed str, s) => (.error str, s)
  | (.elements n, s) =>
    match levels with
    | 0 => (.error (bytesOf "reply too deep or too large"), s)
    | levels + 1 =>
      if n > kMaxRespArrayElements then
        (.error (bytesOf "reply too deep or too large"), s)
      else
        let (rs, s) := parseElements (parseReply levels) n s
        (.array rs, s)

end RedisConn

/-- The connection: whether it is open, what is still to come from the server, and what has been
sent to it. -/
structure RedisConn where
  connected : Bool := true
  socket : RedisConn.Socket := []
  sent : List UInt8 := []

namespace RedisConn

/-! ### Commands -/

def close (c : RedisConn) : RedisConn := { c with connected := false }

/-- The bytes of a command. -/
def request (argv : List (List UInt8)) : List UInt8 :=
  bytesOf ("*" ++ toString argv.length ++ "\r\n") ++
    argv.flatMap fun arg => bytesOf ("$" ++ toString arg.length ++ "\r\n") ++ arg ++ bytesOf "\r\n"

/-- Send a command and read its reply.  The flag says whether the request can be sent in time. -/
def command (argv : List (List UInt8)) (sendable : Bool) (c : RedisConn) : Reply × RedisConn :=
  if c.connected = false then (.error (bytesOf "not connected"), c)
  else if argv.length > kMaxCmdArgs then (.error (bytesOf "too many arguments"), c.close)
  else if argv.any fun arg => arg.length > kMaxCmdArgBytes then
    (.error (bytesOf "argument too large"), c.close)
  else if sendable = false then (.error (bytesOf "send failed"), c.close)
  else
    let (r, s) := parseReply kMaxRespArrayDepth c.socket
    let c := { c with socket := s, sent := c.sent ++ request argv }
    if r.isError then (r, c.close) else (r, c)

/-! ### What a reply looks like -/

/-- The end of a line. -/
def crlf : List UInt8 := [0x0D, 0x0A]

/-- The text of a number: digits, and perhaps a sign in front of them. -/
def Number (n : ℤ) (text : List UInt8) : Prop :=
  -2 ^ 63 ≤ n ∧ n < 2 ^ 63 ∧ text.length ≤ kMaxRespLineBytes ∧ ∃ digits : List Char,
    digits ≠ [] ∧ digits.all Char.isDigit = true ∧
      ((text.map (fun b => Char.ofNat b.toNat) = digits ∨
          text.map (fun b => Char.ofNat b.toNat) = '+' :: digits) ∧
            n = Nat.ofDigitChars 10 digits 0 ∨
        text.map (fun b => Char.ofNat b.toNat) = '-' :: digits ∧
          n = -Nat.ofDigitChars 10 digits 0)

/-- The bytes of a reply, if arrays may be nested so many times. -/
def Serialises (levels : ℕ) (r : Reply) (bytes : List UInt8) : Prop :=
  match r with
  | .simple str =>
    str.length ≤ kMaxRespLineBytes ∧ 0x0D ∉ str ∧ 0x0A ∉ str ∧ bytes = 0x2B :: (str ++ crlf)
  | .error str =>
    str.length ≤ kMaxRespLineBytes ∧ 0x0D ∉ str ∧ 0x0A ∉ str ∧ bytes = 0x2D :: (str ++ crlf)
  | .integer n => ∃ text, Number n text ∧ bytes = 0x3A :: (text ++ crlf)
  | .bulk str =>
    str.length ≤ kMaxRespBulkBytes ∧
      ∃ text, Number str.length text ∧ bytes = 0x24 :: (text ++ crlf ++ (str ++ crlf))
  | .nil =>
    ∃ n < 0, ∃ text, Number n text ∧ ∃ t, (t = 0x24 ∨ t = 0x2A) ∧ bytes = t :: (text ++ crlf)
  | .array rs =>
    match levels with
    | 0 => False
    | levels + 1 =>
      rs.length ≤ kMaxRespArrayElements ∧
        ∃ text texts, Number rs.length text ∧ List.Forall₂ (Serialises levels) rs texts ∧
          bytes = 0x2A :: (text ++ crlf ++ texts.flatten)

/-- The next bytes to come are these, without a wait that runs out, and then comes the rest. -/
def Delivers : Socket → List UInt8 → Socket → Prop
  | s, [], s' => s' = s
  | s, b :: bytes, s' => (recvByte s).1 = some b ∧ Delivers (recvByte s).2 bytes s'

/-! ### Numbers on the wire -/

section Numbers

variable {n : ℤ} {text : List UInt8}

lemma Number.bytes (h : Number n text) {b : UInt8} (hb : b ∈ text) : b ≠ 0x0D ∧ b ≠ 0x0A := by
  obtain ⟨-, -, -, digits, -, hdigits, htext⟩ := h
  rw [List.all_eq_true] at hdigits
  have hmem : Char.ofNat b.toNat ∈ text.map fun b => Char.ofNat b.toNat := List.mem_map_of_mem hb
  have hchar : Char.ofNat b.toNat ∈ ['+', '-'] ∨ (Char.ofNat b.toNat).isDigit = true := by
    rcases htext with ⟨htext | htext, -⟩ | ⟨htext, -⟩
    · exact .inr (hdigits _ (htext ▸ hmem))
    · exact (List.mem_cons.1 (htext ▸ hmem)).imp (fun h => by simp [h]) (hdigits _)
    · exact (List.mem_cons.1 (htext ▸ hmem)).imp (fun h => by simp [h]) (hdigits _)
  constructor
  · rintro rfl
    revert hchar
    decide
  · rintro rfl
    revert hchar
    decide

lemma Number.strtoll (h : Number n text) : strtoll text = n := by
  obtain ⟨hlo, hhi, -, digits, hne, hdigits, htext⟩ := h
  obtain ⟨c, cs, rfl⟩ := List.exists_cons_of_ne_nil hne
  have hvalue : decimalPrefix (c :: cs) = Nat.ofDigitChars 10 (c :: cs) 0 := by
    rw [decimalPrefix, List.takeWhile_eq_self_iff.2 (List.all_eq_true.1 hdigits)]
  have hc : c.isDigit = true := List.all_eq_true.1 hdigits c List.mem_cons_self
  obtain ⟨-, hminus, hplus⟩ := ne_of_isDigit hc
  have hblank : c ∉ [' ', '\t', '\n', '\x0b', '\x0c', '\r'] := by
    intro hmem
    fin_cases hmem <;> revert hc <;> decide
  unfold RedisConn.strtoll
  rcases htext with ⟨htext | htext, rfl⟩ | ⟨htext, rfl⟩
  · rw [htext, List.dropWhile_cons_of_neg (by simpa using hblank)]
    split
    next heq => exact absurd (List.cons.inj heq).1 hminus
    next heq => exact absurd (List.cons.inj heq).1 hplus
    next =>
      rw [hvalue]
      omega
  · rw [htext, List.dropWhile_cons_of_neg (by decide)]
    simp only [hvalue]
    omega
  · rw [htext, List.dropWhile_cons_of_neg (by decide)]
    simp only [hvalue]
    omega

end Numbers

/-! ### Reading what is delivered -/

section Reading

variable {s s' s'' : Socket} {bytes more line : List UInt8}

lemma Delivers.split (h : Delivers s (bytes ++ more) s'') :
    ∃ s', Delivers s bytes s' ∧ Delivers s' more s'' := by
  induction bytes generalizing s with
  | nil => exact ⟨s, rfl, h⟩
  | cons b bytes ih =>
    obtain ⟨s', hbytes, hmore⟩ := ih h.2
    exact ⟨s', ⟨h.1, hbytes⟩, hmore⟩

lemma recvByte_of_delivers {b : UInt8} (h : Delivers s (b :: bytes) s') :
    ∃ s1, recvByte s = (some b, s1) ∧ Delivers s1 bytes s' :=
  ⟨(recvByte s).2, Prod.ext h.1 rfl, h.2⟩

lemma recvLine_eq (line : List UInt8) (s : Socket) :
    recvLine line s =
      match recvByte s with
      | (none, s) => (none, s)
      | (some c, s) =>
        if c = 0x0A then (some line, s)
        else if c ≠ 0x0D then
          if line.length ≥ kMaxRespLineBytes then (none, s) else recvLine (line ++ [c]) s
        else recvLine line s := by
  induction s with
  | nil => rfl
  | cons a s ih =>
    cases a with
    | byte c => rfl
    | timeout => rfl
    | pause =>
      rw [recvLine, recvByte]
      exact ih

/-- A line without its carriage returns. -/
def stripped (raw : List UInt8) : List UInt8 := raw.filter (· ≠ 0x0D)

lemma stripped_concat (h : 0x0D ∉ line) : stripped (line ++ [0x0D]) = line := by
  rw [stripped, List.filter_append, List.filter_eq_self.2 fun b hb => by
    simpa using fun heq : b = 0x0D => h (heq ▸ hb)]
  exact List.append_nil _

lemma recvLine_of_delivers (h : Delivers s (bytes ++ [0x0A]) s') (hlf : 0x0A ∉ bytes)
    (hlen : line.length + (stripped bytes).length ≤ kMaxRespLineBytes) :
    recvLine line s = (some (line ++ stripped bytes), s') := by
  induction bytes generalizing s line with
  | nil =>
    obtain ⟨s1, hlf, rfl⟩ := recvByte_of_delivers h
    rw [recvLine_eq, hlf]
    simp [stripped]
  | cons b bytes ih =>
    obtain ⟨s1, hb, h⟩ := recvByte_of_delivers h
    obtain ⟨hlf1, hlf2⟩ : 0x0A ≠ b ∧ 0x0A ∉ bytes := by simpa using hlf
    rw [recvLine_eq, hb]
    simp only [if_neg hlf1.symm]
    by_cases hcr : b = 0x0D
    · have hskip : stripped (b :: bytes) = stripped bytes := by simp [stripped, hcr]
      rw [hskip] at hlen ⊢
      rw [if_neg (not_not.2 hcr)]
      exact ih h hlf2 hlen
    · have htake : stripped (b :: bytes) = b :: stripped bytes := by simp [stripped, hcr]
      rw [htake, List.length_cons] at hlen
      rw [if_pos hcr, if_neg (by omega), htake,
        ih h hlf2 (by rw [List.length_append, List.length_singleton]; omega)]
      simp

/-- What is read as a line has come as one. -/
lemma delivers_of_recvLine {l : List UInt8} (h : recvLine line s = (some l, s'))
    (hline : line.length ≤ kMaxRespLineBytes) :
    ∃ raw, Delivers s (raw ++ [0x0A]) s' ∧ 0x0A ∉ raw ∧ l = line ++ stripped raw ∧
      l.length ≤ kMaxRespLineBytes := by
  induction s generalizing line with
  | nil => cases h
  | cons a s ih =>
    cases a with
    | timeout => cases h
    | pause =>
      obtain ⟨raw, hraw, hrest⟩ := ih h hline
      refine ⟨raw, ?_, hrest⟩
      cases raw with
      | nil | cons b raw => exact hraw
    | byte c =>
      rw [recvLine] at h
      split_ifs at h with hlf hcr hlong
      · cases h
        exact ⟨[], ⟨by rw [hlf]; rfl, rfl⟩, by simp, by simp [stripped], hline⟩
      · cases h
      · obtain ⟨raw, hraw, hnone, rfl, hlen⟩ := ih h (by
          rw [List.length_append, List.length_singleton]
          omega)
        refine ⟨c :: raw, ⟨rfl, hraw⟩, by simp [hnone, Ne.symm hlf], ?_, hlen⟩
        simp [stripped, hcr]
      · obtain ⟨raw, hraw, hnone, rfl, hlen⟩ := ih h hline
        refine ⟨c :: raw, ⟨rfl, hraw⟩, by simp [hnone, Ne.symm hlf], ?_, hlen⟩
        simp [stripped, not_not.1 hcr]

lemma recvExact_of_delivers (h : Delivers s bytes s') :
    recvExact bytes.length s = (some bytes, s') := by
  induction bytes generalizing s with
  | nil =>
    obtain rfl := h
    rfl
  | cons b bytes ih =>
    obtain ⟨s1, hb, h⟩ := recvByte_of_delivers h
    rw [List.length_cons, recvExact, hb]
    simp only [ih h]

lemma delivers_of_recvExact {n : ℕ} (h : recvExact n s = (some bytes, s')) :
    Delivers s bytes s' ∧ bytes.length = n := by
  induction n generalizing s bytes with
  | zero =>
    cases h
    exact ⟨rfl, rfl⟩
  | succ n ih =>
    rw [recvExact] at h
    split at h
    · cases h
    · rename_i b s1 hb
      split at h
      · cases h
      · rename_i data s2 hdata
        cases h
        obtain ⟨hd, hlen⟩ := ih hdata
        exact ⟨⟨by rw [hb], by rw [hb]; exact hd⟩, by rw [List.length_cons, hlen]⟩

lemma Delivers.append (h : Delivers s bytes s') (h' : Delivers s' more s'') :
    Delivers s (bytes ++ more) s'' := by
  induction bytes generalizing s with
  | nil =>
    obtain rfl := h
    exact h'
  | cons b bytes ih => exact ⟨h.1, ih h.2⟩

lemma Delivers.unique (h : Delivers s bytes s') (h' : Delivers s more s'')
    (hlen : bytes.length = more.length) : bytes = more ∧ s' = s'' := by
  induction bytes generalizing s more with
  | nil =>
    obtain rfl := List.length_eq_zero_iff.1 hlen.symm
    exact ⟨rfl, h.trans h'.symm⟩
  | cons b bytes ih =>
    cases more with
    | nil => cases hlen
    | cons b' more =>
      obtain ⟨rfl, rfl⟩ := ih h.2 h'.2 (Nat.succ.inj hlen)
      exact ⟨by rw [Option.some.inj (h.1.symm.trans h'.1)], rfl⟩

/-- A type byte and a line that is not too long have come. -/
structure Heads (s : Socket) (t : UInt8) (raw : List UInt8) (s' : Socket) : Prop where
  delivers : Delivers s (t :: (raw ++ [0x0A])) s'
  single : 0x0A ∉ raw
  short : (stripped raw).length ≤ kMaxRespLineBytes

lemma Heads.unique {t t' : UInt8} {raw raw' : List UInt8} (h : Heads s t raw s')
    (h' : Heads s t' raw' s'') : t = t' ∧ raw = raw' ∧ s' = s'' := by
  have hlen {raw raw' : List UInt8} {s s' s'' : Socket} (h : Delivers s (raw ++ [0x0A]) s')
      (h' : Delivers s (raw' ++ [0x0A]) s'') (hnone : 0x0A ∉ raw) : raw.length ≤ raw'.length := by
    by_contra hlong
    rw [← List.take_append_drop (raw'.length + 1) raw, List.append_assoc] at h
    obtain ⟨s1, hfirst, -⟩ := h.split
    obtain ⟨heq, -⟩ := hfirst.unique h' (by simp; omega)
    exact hnone (List.mem_of_mem_take (heq ▸ List.mem_append_right _ (List.mem_singleton_self _)))
  have hsame := le_antisymm (hlen h.delivers.2 h'.delivers.2 h.single)
    (hlen h'.delivers.2 h.delivers.2 h'.single)
  obtain ⟨heq, hrest⟩ := h.delivers.unique h'.delivers (by simp [hsame])
  obtain ⟨ht, heq⟩ := List.cons.inj heq
  exact ⟨ht, List.append_cancel_right heq, hrest⟩

end Reading

/-! ### Reading a reply -/

/-- A failure while an array is read: of one of its elements. -/
def elementsFail (parse : Socket → Reply × Socket) (fails : Socket → Bool) : ℕ → Socket → Bool
  | 0, _ => false
  | n + 1, s => fails s || elementsFail parse fails n (parse s).2

/-- A read fails, a limit is exceeded or a type byte is unknown while a reply is read, however deep
in it. -/
def fails (levels : ℕ) (s : Socket) : Bool :=
  match parseHead s with
  | (.whole _, _) => false
  | (.failed _, _) => true
  | (.elements n, s) =>
    match levels with
    | 0 => true
    | levels + 1 =>
      decide (n > kMaxRespArrayElements) ||
        elementsFail (parseReply levels) (fails levels) n s

/-- The failure is at the top, or the reply is an error. -/
def topFails (s : Socket) : Bool :=
  match parseHead s with
  | (.whole r, _) => r.isError
  | (.failed _, _) => true
  | (.elements n, _) => decide (n > kMaxRespArrayElements)

section Replies

variable {s s' : Socket} {bytes line : List UInt8} {levels : ℕ} {r : Reply}

lemma isError_parseReply (levels : ℕ) (s : Socket) :
    (parseReply (levels + 1) s).1.isError = topFails s := by
  rw [parseReply, topFails]
  split
  · rfl
  · rfl
  · rename_i n s' hhead
    simp only
    split
    · rename_i hlarge
      simp [hlarge, Reply.isError]
    · rename_i hsmall
      simp [hsmall, Reply.isError]

lemma parseHead_of_heads {t : UInt8} (ht : t ∈ [0x2B, 0x2D, 0x3A, 0x24, 0x2A])
    (h : Heads s t line s') : parseHead s = parseLine t (stripped line) s' := by
  obtain ⟨s1, hbyte, hd⟩ := recvByte_of_delivers h.delivers
  have hline : recvLine [] s1 = (some ([] ++ stripped line), s') :=
    recvLine_of_delivers hd h.single (by simpa using h.short)
  rw [parseHead, hbyte]
  simp only [if_pos ht, hline, List.nil_append]

/-- What can be read of a reply has come as a line. -/
lemma heads_of_parseHead (h : ∀ str s', parseHead s ≠ (.failed str, s')) :
    ∃ t raw s', t ∈ [0x2B, 0x2D, 0x3A, 0x24, 0x2A] ∧ Heads s t raw s' ∧
      parseHead s = parseLine t (stripped raw) s' := by
  unfold parseHead at h ⊢
  split at h
  · exact absurd rfl (h _ _)
  · rename_i t s1 hbyte
    split at h
    · rename_i ht
      split at h
      · exact absurd rfl (h _ _)
      · rename_i l s2 hline
        obtain ⟨raw, hd, hnone, rfl, hlen⟩ := delivers_of_recvLine hline (Nat.zero_le _)
        refine ⟨t, raw, s2, ht, ⟨⟨by rw [hbyte], by rw [hbyte]; exact hd⟩, hnone, hlen⟩, ?_⟩
        simp only [if_pos ht]
        rfl
    · exact absurd rfl (h _ _)

lemma heads_of_text {t : UInt8} (hlen : line.length ≤ kMaxRespLineBytes) (hcr : 0x0D ∉ line)
    (hlf : 0x0A ∉ line) (h : Delivers s (t :: (line ++ crlf)) s') :
    Heads s t (line ++ [0x0D]) s' := by
  refine ⟨by rw [List.append_assoc]; exact h, by simp [hlf], ?_⟩
  rw [stripped_concat hcr]
  exact hlen

lemma Number.heads {t : UInt8} {n : ℤ} (hn : Number n line)
    (h : Delivers s (t :: (line ++ crlf)) s') :
    Heads s t (line ++ [0x0D]) s' :=
  heads_of_text hn.2.2.1 (fun hmem => (hn.bytes hmem).1 rfl) (fun hmem => (hn.bytes hmem).2 rfl) h

/-- How a reply begins, and what comes behind its first line. -/
lemma heads_of_serialises (h : Serialises levels r bytes) (hd : Delivers s bytes s') :
    ∃ t text s1, Heads s t (text ++ [0x0D]) s1 ∧
      ((t = 0x2B ∧ r = .simple text ∨ t = 0x2D ∧ r = .error text) ∧ 0x0D ∉ text ∧ s' = s1 ∨
        ∃ n, Number n text ∧ (t = 0x3A ∧ r = .integer n ∧ s' = s1 ∨
          n < 0 ∧ (t = 0x24 ∨ t = 0x2A) ∧ r = .nil ∧ s' = s1 ∨
          (t = 0x24 ∧ ∃ str, str.length = n ∧ str.length ≤ kMaxRespBulkBytes ∧ r = .bulk str ∧
            Delivers s1 (str ++ crlf) s') ∨
          t = 0x2A ∧ ∃ k rs texts, levels = k + 1 ∧ rs.length = n ∧
            rs.length ≤ kMaxRespArrayElements ∧ r = .array rs ∧
            List.Forall₂ (Serialises k) rs texts ∧ Delivers s1 texts.flatten s')) := by
  rw [Serialises.eq_def] at h
  cases r with
  | simple str =>
    obtain ⟨hlen, hcr, hlf, rfl⟩ := h
    exact ⟨_, str, s', heads_of_text hlen hcr hlf hd, .inl ⟨.inl ⟨rfl, rfl⟩, hcr, rfl⟩⟩
  | error str =>
    obtain ⟨hlen, hcr, hlf, rfl⟩ := h
    exact ⟨_, str, s', heads_of_text hlen hcr hlf hd, .inl ⟨.inr ⟨rfl, rfl⟩, hcr, rfl⟩⟩
  | integer n =>
    obtain ⟨text, hn, rfl⟩ := h
    exact ⟨_, text, s', hn.heads hd, .inr ⟨n, hn, .inl ⟨rfl, rfl, rfl⟩⟩⟩
  | bulk str =>
    obtain ⟨hlen, text, hn, rfl⟩ := h
    rw [← List.cons_append] at hd
    obtain ⟨s1, hline, hd⟩ := hd.split
    exact ⟨_, text, s1, hn.heads hline,
      .inr ⟨_, hn, .inr (.inr (.inl ⟨rfl, str, rfl, hlen, rfl, hd⟩))⟩⟩
  | nil =>
    obtain ⟨n, hneg, text, hn, t, ht, rfl⟩ := h
    exact ⟨t, text, s', hn.heads hd, .inr ⟨n, hn, .inr (.inl ⟨hneg, ht, rfl, rfl⟩)⟩⟩
  | array rs =>
    cases levels with
    | zero => exact absurd h id
    | succ k =>
      obtain ⟨hlen, text, texts, hn, htexts, rfl⟩ := h
      rw [← List.cons_append] at hd
      obtain ⟨s1, hline, hd⟩ := hd.split
      exact ⟨_, text, s1, hn.heads hline, .inr ⟨_, hn,
        .inr (.inr (.inr ⟨rfl, k, rs, texts, rfl, rfl, hlen, rfl, htexts, hd⟩))⟩⟩

lemma parseLine_nil {t : UInt8} (ht : t = 0x24 ∨ t = 0x2A) (hneg : strtoll line < 0) :
    parseLine t line s = (.whole .nil, s) := by
  rcases ht with rfl | rfl
  · simp [parseLine, hneg]
  · simp [parseLine, hneg]

lemma parseLine_array {n : ℕ} (hn : strtoll line = n) :
    parseLine 0x2A line s = (.elements n, s) := by
  simp [parseLine, hn]

lemma parseLine_bulk {str : List UInt8} {more : List UInt8} (hmore : more.length = 2)
    (hn : strtoll line = str.length) (hlen : str.length ≤ kMaxRespBulkBytes)
    (h : Delivers s (str ++ more) s') : parseLine 0x24 line s = (.whole (.bulk str), s') := by
  obtain ⟨s2, hdata, hend⟩ := h.split
  have hskip : recvExact 2 s2 = (some more, s') := hmore ▸ recvExact_of_delivers hend
  have hpos : ¬(str.length : ℤ) < 0 := by omega
  simp [parseLine, hn, recvExact_of_delivers hdata, hskip, hpos, Nat.not_lt.2 hlen]

lemma parseElements_of_delivers {parse : Socket → Reply × Socket} {failing : Socket → Bool}
    {R : Reply → List UInt8 → Prop}
    (hparse : ∀ r bytes s s', R r bytes → Delivers s bytes s' →
      parse s = (r, s') ∧ failing s = false)
    {rs : List Reply} {texts : List (List UInt8)} (h : List.Forall₂ R rs texts)
    (hd : Delivers s texts.flatten s') :
    parseElements parse rs.length s = (rs, s') ∧ elementsFail parse failing rs.length s = false := by
  induction h generalizing s with
  | nil =>
    obtain rfl := hd
    exact ⟨rfl, rfl⟩
  | cons hr hrest ih =>
    rw [List.flatten_cons] at hd
    obtain ⟨s1, hfirst, hd⟩ := hd.split
    obtain ⟨hp, hf⟩ := hparse _ _ _ _ hr hfirst
    obtain ⟨ihp, ihf⟩ := ih hd
    rw [List.length_cons, parseElements, elementsFail, hp, hf]
    simp [ihp, ihf]

lemma parseReply_of_whole (h : parseHead s = (.whole r, s')) :
    parseReply levels s = (r, s') ∧ fails levels s = false := by
  rw [parseReply.eq_def, fails.eq_def, h]
  exact ⟨rfl, rfl⟩

/-- **A reply that is delivered is read**: as what it is, to its end and without a failure. -/
lemma parseReply_of_serialises (h : Serialises levels r bytes) (hd : Delivers s bytes s') :
    parseReply levels s = (r, s') ∧ fails levels s = false := by
  induction levels using Nat.strong_induction_on generalizing r bytes s s' with
  | _ levels ih =>
  obtain ⟨t, text, s1, hheads, hrest⟩ := heads_of_serialises h hd
  rcases hrest with ⟨hstring, hcr, rfl⟩ | ⟨n, hn, hnumber⟩
  · refine parseReply_of_whole ?_
    rcases hstring with ⟨rfl, rfl⟩ | ⟨rfl, rfl⟩
    · rw [parseHead_of_heads (by decide) hheads, stripped_concat hcr]
      rfl
    · rw [parseHead_of_heads (by decide) hheads, stripped_concat hcr]
      rfl
  have hcr : 0x0D ∉ text := fun hmem => (hn.bytes hmem).1 rfl
  rcases hnumber with ⟨rfl, rfl, rfl⟩ | ⟨hneg, ht, rfl, rfl⟩ | ⟨rfl, str, rfl, hlen, rfl, hd⟩ |
    ⟨rfl, k, rs, texts, rfl, rfl, hlen, rfl, htexts, hd⟩
  · refine parseReply_of_whole ?_
    rw [parseHead_of_heads (by decide) hheads, stripped_concat hcr]
    simp [parseLine, hn.strtoll]
  · refine parseReply_of_whole ?_
    rw [parseHead_of_heads (by rcases ht with rfl | rfl <;> decide) hheads, stripped_concat hcr]
    exact parseLine_nil ht (hn.strtoll.trans_lt hneg)
  · refine parseReply_of_whole ?_
    rw [parseHead_of_heads (by decide) hheads, stripped_concat hcr]
    exact parseLine_bulk rfl hn.strtoll hlen hd
  · have hhead : parseHead s = (.elements rs.length, s1) := by
      rw [parseHead_of_heads (by decide) hheads, stripped_concat hcr]
      exact parseLine_array hn.strtoll
    obtain ⟨hparse, hfail⟩ := parseElements_of_delivers
      (fun r bytes s s' hr hs => ih k (Nat.lt_succ_self k) hr hs) htexts hd
    rw [parseReply.eq_def, fails.eq_def, hhead]
    simp [Nat.not_lt.2 hlen, hparse, hfail]

/-- **Replies parse back.**  A reply within the limits, with arrays nested at most eight times, is
read as what it is from its bytes and whatever follows them, however often the connection has to
wait in between, and exactly its bytes are consumed. -/
theorem replies_parse_back (r : Reply) (bytes : List UInt8) (s rest : Socket)
    (h : Serialises kMaxRespArrayDepth r bytes) (hd : Delivers s bytes rest) :
    parseReply kMaxRespArrayDepth s = (r, rest) :=
  (parseReply_of_serialises h hd).1

lemma delivers_bytes (bytes : List UInt8) (rest : Socket) :
    Delivers (bytes.map .byte ++ rest) bytes rest := by
  induction bytes with
  | nil => rfl
  | cons b bytes ih => exact ⟨rfl, ih⟩

/-- An array with an error and an array in it, and the beginning of another reply behind it. -/
theorem replies_parse_back_nested :
    parseReply kMaxRespArrayDepth
        ((bytesOf "*2\r\n-ERR\r\n*1\r\n:-7\r\n").map .byte ++ [.timeout, .byte 0x2B]) =
      (.array [.error (bytesOf "ERR"), .array [.integer (-7)]], [.timeout, .byte 0x2B]) := by
  have herror : Serialises 7 (.error (bytesOf "ERR")) (bytesOf "-ERR\r\n") := by
    rw [Serialises.eq_def]
    decide
  have hseven : Number (-7) (bytesOf "-7") :=
    ⟨by decide, by decide, by decide, ['7'], by decide, by decide, .inr (by decide)⟩
  have hone : Number 1 (bytesOf "1") :=
    ⟨by decide, by decide, by decide, ['1'], by decide, by decide, .inl (by decide)⟩
  have htwo : Number 2 (bytesOf "2") :=
    ⟨by decide, by decide, by decide, ['2'], by decide, by decide, .inl (by decide)⟩
  have hinteger : Serialises 6 (.integer (-7)) (bytesOf ":-7\r\n") := by
    rw [Serialises.eq_def]
    exact ⟨_, hseven, by decide⟩
  have hinner : Serialises 7 (.array [.integer (-7)]) (bytesOf "*1\r\n:-7\r\n") := by
    rw [Serialises.eq_def]
    exact ⟨by decide, _, [_], hone, .cons hinteger .nil, by decide⟩
  refine replies_parse_back _ _ _ _ ?_ (delivers_bytes _ _)
  rw [Serialises.eq_def]
  exact ⟨by decide, _, [_, _], htwo, .cons herror (.cons hinner .nil), by decide⟩

end Replies

/-! ### Commands in step with their replies -/

/-- The command is not sent: the connection is closed or is going to be. -/
def Refused (argv : List (List UInt8)) (sendable : Bool) (c : RedisConn) : Prop :=
  c.connected = false ∨ argv.length > kMaxCmdArgs ∨
    argv.any (fun arg => arg.length > kMaxCmdArgBytes) = true ∨ sendable = false

/-- If the connection stays open, the command has consumed exactly one complete reply and returns
it; and a failure at any depth closes the connection. -/
def InStep (argv : List (List UInt8)) (sendable : Bool) (c : RedisConn) : Prop :=
  ((c.command argv sendable).2.connected = true →
    ∃ bytes, Delivers c.socket bytes (c.command argv sendable).2.socket ∧
      Serialises kMaxRespArrayDepth (c.command argv sendable).1 bytes) ∧
  (fails kMaxRespArrayDepth c.socket = true → (c.command argv sendable).2.connected = false)

section Commands

variable {argv : List (List UInt8)} {sendable : Bool} {c : RedisConn}

lemma connected_of_refused (h : Refused argv sendable c) :
    (c.command argv sendable).2.connected = false := by
  unfold command
  split_ifs with hconnected hargs hsize hsend
  · exact hconnected
  · rfl
  · rfl
  · rfl
  · rcases h with h | h | h | h <;> contradiction

lemma command_of_sent (h : ¬Refused argv sendable c) :
    (c.command argv sendable).1 = (parseReply kMaxRespArrayDepth c.socket).1 ∧
      (c.command argv sendable).2.socket = (parseReply kMaxRespArrayDepth c.socket).2 ∧
      (c.command argv sendable).2.connected = !topFails c.socket := by
  simp only [Refused, not_or] at h
  obtain ⟨hconnected, hargs, hsize, hsend⟩ := h
  have htop : (parseReply kMaxRespArrayDepth c.socket).1.isError = topFails c.socket :=
    isError_parseReply 7 c.socket
  unfold command
  rw [if_neg hconnected, if_neg hargs, if_neg hsize, if_neg hsend]
  cases hfails : topFails c.socket with
  | true => simp [htop, hfails, close]
  | false => simpa [htop, hfails] using hconnected

/-- The line is the text of a number and ends as a line does. -/
def Numeric (raw : List UInt8) : Prop := ∃ n text, Number n text ∧ raw = text ++ [0x0D]

/-- What comes is taken for a reply but is none.  In an array that is announced, some replies are
followed by bytes that do not begin with another one; or a line is readable only because carriage
returns are dropped wherever they are and numbers are read as far as they go; or the two bytes behind
a string, which are not looked at, do not end a line. -/
inductive Astray (s : Socket) : Prop
  | nested {n : ℕ} {raw : List UInt8} {s₁ s₂ : Socket} {rs : List Reply}
      {texts : List (List UInt8)} (hhead : Heads s 0x2A raw s₁)
      (hn : strtoll (stripped raw) = n) (hlimit : n ≤ kMaxRespArrayElements)
      (hdone : List.Forall₂ (Serialises (kMaxRespArrayDepth - 1)) rs texts)
      (hread : Delivers s₁ texts.flatten s₂) (hmore : rs.length < n)
      (hnext : ∀ r bytes rest, Serialises (kMaxRespArrayDepth - 1) r bytes →
        ¬Delivers s₂ bytes rest)
  | line {raw : List UInt8} {s₁ : Socket} (hhead : Heads s 0x2B raw s₁)
      (hraw : ∀ str, 0x0D ∉ str → raw ≠ str ++ [0x0D])
  | number {t : UInt8} {raw : List UInt8} {s₁ : Socket} (hhead : Heads s t raw s₁)
      (ht : t = 0x3A ∨ t = 0x24 ∧ strtoll (stripped raw) < 0 ∨
        t = 0x2A ∧ strtoll (stripped raw) ≤ kMaxRespArrayElements)
      (hraw : ¬Numeric raw)
  | bulk {raw str more : List UInt8} {s₁ s₂ : Socket} (hhead : Heads s 0x24 raw s₁)
      (hn : strtoll (stripped raw) = str.length) (hlimit : str.length ≤ kMaxRespBulkBytes)
      (hread : Delivers s₁ (str ++ more) s₂) (hmore : more.length = 2)
      (hraw : ¬Numeric raw ∨ more ≠ crlf)

lemma bulk_of_parseLine {line : List UInt8} {s : Socket} (hneg : ¬strtoll line < 0)
    (h : ∀ str s', parseLine 0x24 line s ≠ (.failed str, s')) :
    ∃ str more s', strtoll line = (str.length : ℤ) ∧ str.length ≤ kMaxRespBulkBytes ∧
      more.length = 2 ∧ Delivers s (str ++ more) s' := by
  have hbulk : parseLine 0x24 line s =
      if strtoll line > kMaxRespBulkBytes then (.failed (bytesOf "reply too large"), s)
      else
        match recvExact (strtoll line).toNat s with
        | (none, s) => (.failed (bytesOf "read failed"), s)
        | (some data, s) =>
          match recvExact 2 s with
          | (none, s) => (.failed (bytesOf "read failed"), s)
          | (some _, s) => (.whole (.bulk data), s) := by
    simp [parseLine, hneg]
  rw [hbulk] at h
  split_ifs at h with hlarge
  · exact absurd rfl (h _ _)
  split at h
  · exact absurd rfl (h _ _)
  · rename_i str s1 hstr
    split at h
    · exact absurd rfl (h _ _)
    · rename_i more s2 hmore
      obtain ⟨hd, hlen⟩ := delivers_of_recvExact hstr
      obtain ⟨hd', htwo⟩ := delivers_of_recvExact hmore
      exact ⟨str, more, s2, by omega, by omega, htwo, hd.append hd'⟩

lemma Astray.topFails {s : Socket} (h : Astray s) : topFails s = false := by
  unfold RedisConn.topFails
  cases h with
  | nested hhead hn hlimit =>
    rw [parseHead_of_heads (by decide) hhead, parseLine_array hn]
    exact decide_eq_false (Nat.not_lt.2 hlimit)
  | line hhead =>
    rw [parseHead_of_heads (by decide) hhead]
    rfl
  | number hhead ht hraw =>
    rename_i t raw s₁
    rcases ht with rfl | ⟨rfl, hneg⟩ | ⟨rfl, hle⟩
    · rw [parseHead_of_heads (by decide) hhead]
      rfl
    · rw [parseHead_of_heads (by decide) hhead, parseLine_nil (.inl rfl) hneg]
      rfl
    · rw [parseHead_of_heads (by decide) hhead]
      by_cases hneg : strtoll (stripped raw) < 0
      · rw [parseLine_nil (.inr rfl) hneg]
        rfl
      · obtain ⟨n, hn⟩ := Int.eq_ofNat_of_zero_le (Int.not_lt.1 hneg)
        rw [parseLine_array hn]
        exact decide_eq_false (by omega)
  | bulk hhead hn hlimit hread hmore =>
    rw [parseHead_of_heads (by decide) hhead, parseLine_bulk hmore hn hlimit hread]
    rfl

/-- Where some replies have been read and more are to come, there is another one. -/
lemma exists_next {levels : ℕ} {s s₁ s₂ : Socket} {rs rs' : List Reply}
    {texts texts' : List (List UInt8)} (h : List.Forall₂ (Serialises levels) rs texts)
    (hd : Delivers s texts.flatten s₁) (h' : List.Forall₂ (Serialises levels) rs' texts')
    (hd' : Delivers s texts'.flatten s₂) (hlt : rs.length < rs'.length) :
    ∃ r bytes rest, Serialises levels r bytes ∧ Delivers s₁ bytes rest := by
  induction h generalizing s rs' texts' with
  | nil =>
    obtain rfl := hd
    cases h' with
    | nil => cases hlt
    | cons hr hrest =>
      obtain ⟨s', hfirst, -⟩ := Delivers.split hd'
      exact ⟨_, _, _, hr, hfirst⟩
  | cons hr hrest ih =>
    cases h' with
    | nil => cases hlt
    | cons hr' hrest' =>
      obtain ⟨s', hfirst, hd⟩ := Delivers.split hd
      obtain ⟨s'', hfirst', hd'⟩ := Delivers.split hd'
      -- the first replies are the same one
      have heq := (parseReply_of_serialises hr hfirst).1.symm.trans
        (parseReply_of_serialises hr' hfirst').1
      obtain rfl := (Prod.mk.inj heq).2
      exact ih hd hrest' hd' (Nat.lt_of_succ_lt_succ hlt)

lemma Astray.not_complete {s rest : Socket} {r : Reply} {bytes : List UInt8} (h : Astray s)
    (hr : Serialises kMaxRespArrayDepth r bytes) (hd : Delivers s bytes rest) : False := by
  obtain ⟨t, text, s1, hheads, hrest⟩ := heads_of_serialises hr hd
  have hvalue {n : ℤ} (hn : Number n text) : strtoll (stripped (text ++ [0x0D])) = n := by
    rw [stripped_concat fun hmem => (hn.bytes hmem).1 rfl]
    exact hn.strtoll
  cases h with
  | nested hhead hcount hlimit hdone hread hmore hnext =>
    obtain ⟨rfl, rfl, rfl⟩ := hhead.unique hheads
    rcases hrest with ⟨⟨ht, -⟩ | ⟨ht, -⟩, -⟩ | ⟨n, hn, hnumber⟩
    · cases ht
    · cases ht
    rw [hvalue hn] at hcount
    rcases hnumber with ⟨ht, -⟩ | ⟨hneg, -⟩ | ⟨ht, -⟩ | ⟨-, k, rs, texts, hk, hlen, -, -, htexts, hd⟩
    · cases ht
    · omega
    · cases ht
    · obtain rfl : k = kMaxRespArrayDepth - 1 := by omega
      obtain ⟨r, bytes, rest, hr, hd⟩ := exists_next hdone hread htexts hd (by omega)
      exact hnext r bytes rest hr hd
  | line hhead hraw =>
    obtain ⟨rfl, rfl, rfl⟩ := hhead.unique hheads
    rcases hrest with ⟨-, hcr, -⟩ | ⟨n, hn, -⟩
    · exact hraw text hcr rfl
    · exact hraw text (fun hmem => (hn.bytes hmem).1 rfl) rfl
  | number hhead ht hraw =>
    obtain ⟨rfl, rfl, rfl⟩ := hhead.unique hheads
    rcases hrest with ⟨hstring, -⟩ | ⟨n, hn, -⟩
    · rcases hstring with ⟨rfl, -⟩ | ⟨rfl, -⟩ <;> simp at ht
    · exact hraw ⟨n, text, hn, rfl⟩
  | bulk hhead hlen hlimit hread hmore hraw =>
    obtain ⟨rfl, rfl, rfl⟩ := hhead.unique hheads
    rcases hrest with ⟨⟨ht, -⟩ | ⟨ht, -⟩, -⟩ | ⟨n, hn, hnumber⟩
    · cases ht
    · cases ht
    rw [hvalue hn] at hlen
    rcases hnumber with ⟨ht, -⟩ | ⟨hneg, -⟩ | ⟨-, str, hstr, -, -, hd⟩ | ⟨ht, -⟩
    · cases ht
    · omega
    · obtain ⟨heq, -⟩ := hread.unique hd (by simp [hmore, crlf]; omega)
      obtain ⟨-, rfl⟩ := List.append_inj heq (by omega)
      exact hraw.elim (fun hno => hno ⟨n, text, hn, rfl⟩) fun hno => hno rfl
    · cases ht

/-- If every reply in a row is followed by another one, there are enough of them. -/
lemma exists_texts {levels : ℕ} {s : Socket} {n : ℕ}
    (h : ∀ rs texts s₁, List.Forall₂ (Serialises levels) rs texts →
      Delivers s texts.flatten s₁ → rs.length < n →
        ∃ r bytes rest, Serialises levels r bytes ∧ Delivers s₁ bytes rest) {k : ℕ} (hk : k ≤ n) :
    ∃ rs texts s₁, rs.length = k ∧ List.Forall₂ (Serialises levels) rs texts ∧
      Delivers s texts.flatten s₁ := by
  induction k with
  | zero => exact ⟨[], [], s, rfl, .nil, rfl⟩
  | succ k ih =>
    obtain ⟨rs, texts, s₁, hlen, htexts, hd⟩ := ih (by omega)
    obtain ⟨r, bytes, rest, hr, hmore⟩ := h rs texts s₁ htexts hd (by omega)
    refine ⟨rs ++ [r], texts ++ [bytes], rest, by simp [hlen],
      List.rel_append htexts (.cons hr .nil), ?_⟩
    rw [List.flatten_append, List.flatten_singleton]
    exact hd.append hmore

/-- What is neither refused at the top nor astray is a complete reply. -/
lemma exists_complete {s : Socket} (htop : topFails s = false) (h : ¬Astray s) :
    ∃ r bytes rest, Serialises kMaxRespArrayDepth r bytes ∧ Delivers s bytes rest := by
  have hfine : ∀ str s', parseHead s ≠ (.failed str, s') := by
    intro str s' hhead
    rw [topFails, hhead] at htop
    cases htop
  obtain ⟨t, raw, s₁, ht, hheads, hparse⟩ := heads_of_parseHead hfine
  rw [topFails, hparse] at htop
  rw [hparse] at hfine
  have hnumber (hbad : ¬Numeric raw → Astray s) :
      ∃ text, Number (strtoll (stripped raw)) text ∧ Delivers s (t :: (text ++ crlf)) s₁ := by
    obtain ⟨n, text, hn, rfl⟩ := not_not.1 fun hno => h (hbad hno)
    rw [stripped_concat fun hmem => (hn.bytes hmem).1 rfl, hn.strtoll]
    refine ⟨text, hn, ?_⟩
    have hd := hheads.delivers
    rwa [List.append_assoc] at hd
  have hlt : t = 0x2B ∨ t = 0x2D ∨ t = 0x3A ∨ t = 0x24 ∨ t = 0x2A := by simpa using ht
  rcases hlt with rfl | rfl | rfl | rfl | rfl
  · obtain ⟨str, hcr, rfl⟩ : ∃ str, 0x0D ∉ str ∧ raw = str ++ [0x0D] := by
      by_contra hno
      exact h (.line hheads fun str hcr heq => hno ⟨str, hcr, heq⟩)
    refine ⟨.simple str, _, s₁, ?_, hheads.delivers⟩
    rw [Serialises.eq_def]
    refine ⟨?_, hcr, fun hmem => hheads.single (List.mem_append_left _ hmem), ?_⟩
    · have hshort := hheads.short
      rwa [stripped_concat hcr] at hshort
    · rw [List.append_assoc]
      rfl
  · cases htop
  · obtain ⟨text, hn, hd⟩ := hnumber fun hbad => .number hheads (.inl rfl) hbad
    refine ⟨.integer (strtoll (stripped raw)), _, s₁, ?_, hd⟩
    rw [Serialises.eq_def]
    exact ⟨text, hn, rfl⟩
  · by_cases hneg : strtoll (stripped raw) < 0
    · obtain ⟨text, hn, hd⟩ := hnumber fun hbad => .number hheads (.inr (.inl ⟨rfl, hneg⟩)) hbad
      refine ⟨.nil, _, s₁, ?_, hd⟩
      rw [Serialises.eq_def]
      exact ⟨_, hneg, text, hn, _, .inl rfl, rfl⟩
    · obtain ⟨str, more, s₂, hlen, hlimit, hmore, hread⟩ := bulk_of_parseLine hneg hfine
      obtain ⟨text, hn, hd⟩ := hnumber fun hbad => .bulk hheads hlen hlimit hread hmore (.inl hbad)
      obtain rfl : more = crlf := by
        by_contra hno
        exact h (.bulk hheads hlen hlimit hread hmore (.inr hno))
      refine ⟨.bulk str, _, s₂, ?_, hd.append hread⟩
      rw [Serialises.eq_def]
      exact ⟨hlimit, text, hlen ▸ hn, rfl⟩
  · have hle : strtoll (stripped raw) ≤ kMaxRespArrayElements := by
      by_contra hlarge
      obtain ⟨n, hn⟩ := Int.eq_ofNat_of_zero_le (show 0 ≤ strtoll (stripped raw) by omega)
      rw [parseLine_array hn] at htop
      exact of_decide_eq_false htop (by omega)
    obtain ⟨text, hn, hd⟩ := hnumber fun hbad => .number hheads (.inr (.inr ⟨rfl, hle⟩)) hbad
    by_cases hneg : strtoll (stripped raw) < 0
    · refine ⟨.nil, _, s₁, ?_, hd⟩
      rw [Serialises.eq_def]
      exact ⟨_, hneg, text, hn, _, .inr rfl, rfl⟩
    · obtain ⟨n, hcount⟩ := Int.eq_ofNat_of_zero_le (Int.not_lt.1 hneg)
      have hnext (rs : List Reply) (texts : List (List UInt8)) (s₂ : Socket)
          (htexts : List.Forall₂ (Serialises (kMaxRespArrayDepth - 1)) rs texts)
          (hread : Delivers s₁ texts.flatten s₂) (hmore : rs.length < n) :
          ∃ r bytes rest, Serialises (kMaxRespArrayDepth - 1) r bytes ∧ Delivers s₂ bytes rest := by
        by_contra hno
        refine h (.nested hheads hcount (by omega) htexts hread hmore fun r bytes rest hr hd => ?_)
        exact hno ⟨r, bytes, rest, hr, hd⟩
      obtain ⟨rs, texts, s₂, hlen, htexts, hread⟩ := exists_texts hnext le_rfl
      refine ⟨.array rs, _, s₂, ?_, hd.append hread⟩
      rw [Serialises.eq_def]
      exact ⟨by omega, text, texts, by rw [hlen, ← hcount]; exact hn, htexts, rfl⟩

/-- **When a command is in step.**  This is so exactly if the command is not sent, or what comes is
not astray. -/
theorem command_in_step_iff (argv : List (List UInt8)) (sendable : Bool) (c : RedisConn) :
    InStep argv sendable c ↔ Refused argv sendable c ∨ ¬Astray c.socket := by
  by_cases hrefused : Refused argv sendable c
  · have hclosed := connected_of_refused hrefused
    refine iff_of_true ⟨fun hopen => ?_, fun _ => hclosed⟩ (.inl hrefused)
    exact absurd (hopen.symm.trans hclosed) (by decide)
  obtain ⟨hreply, hsocket, hconnected⟩ := command_of_sent hrefused
  constructor
  · rintro ⟨hcomplete, -⟩
    refine .inr fun hastray => ?_
    obtain ⟨bytes, hd, hr⟩ := hcomplete (by rw [hconnected, hastray.topFails]; rfl)
    exact hastray.not_complete hr hd
  · intro h
    cases htop : topFails c.socket with
    | true =>
      have hclosed : (c.command argv sendable).2.connected = false := by
        rw [hconnected, htop]
        rfl
      exact ⟨fun hopen => absurd (hopen.symm.trans hclosed) (by decide), fun _ => hclosed⟩
    | false =>
      obtain ⟨r, bytes, rest, hr, hd⟩ := exists_complete htop (h.resolve_left hrefused)
      obtain ⟨hparse, hfine⟩ := parseReply_of_serialises hr hd
      rw [hparse] at hreply hsocket
      refine ⟨fun _ => ⟨bytes, ?_, ?_⟩, fun hfails => ?_⟩
      · rw [hsocket]
        exact hd
      · rw [hreply]
        exact hr
      · rw [hfine] at hfails
        cases hfails

/-- An array of one element whose type byte is unknown. -/
def misread : RedisConn := { socket := (bytesOf "*1\r\n?:7\r\n").map .byte }

/-- The unknown type byte is met inside the array, so the connection stays open, and the next
command is answered with what the first one has left over. -/
theorem misread_out_of_step :
    fails kMaxRespArrayDepth misread.socket = true ∧
      (misread.command [bytesOf "PING"] true).2.connected = true ∧
      ¬InStep [bytesOf "PING"] true misread ∧
      ((misread.command [bytesOf "PING"] true).2.command [bytesOf "PING"] true).1 =
        .integer 7 := by
  have hfails : fails kMaxRespArrayDepth misread.socket = true := by decide
  have hopen : (misread.command [bytesOf "PING"] true).2.connected = true := by decide
  refine ⟨hfails, hopen, fun hstep => ?_, by rfl⟩
  exact absurd ((hstep.2 hfails).symm.trans hopen) (by decide)

end Commands

end RedisConn

end MuduoChat
