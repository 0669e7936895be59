import MuduoChat.Store.Columns

/-!
# Reading JSON texts

The parser of the library that the source uses, on the characters of a text.  It keeps the fields of
an object in ascending order of their names, and of several fields with one name the last.  What it
makes of a number that is not an integer of 64 bits is a parameter.  A value that is serialised is
read back (`parse_dump`).
-/

namespace MuduoChat

namespace Json

/-! ### The parser -/

def hexValue (c : Char) : Option ℕ :=
  if c.isDigit then some (c.toNat - 48)
  else if 'a' ≤ c ∧ c ≤ 'f' then some (c.toNat - 87)
  else if 'A' ≤ c ∧ c ≤ 'F' then some (c.toNat - 55)
  else none

def hex4 (a b c d : Char) : Option ℕ := do
  pure ((((← hexValue a) * 16 + (← hexValue b)) * 16 + (← hexValue c)) * 16 + (← hexValue d))

/-- The character that a letter behind a backslash stands for. -/
def unescape (c : Char) : Option Char :=
  [('"', '"'), ('\\', '\\'), ('/', '/'), ('b', '\x08'), ('f', '\x0c'), ('n', '\n'), ('r', '\r'),
    ('t', '\t')].lookup c

/-- The characters of a string, up to its closing quote, and what is behind it. -/
def parseString : List Char → Option (List Char × List Char)
  | [] => none
  | '"' :: cs => some ([], cs)
  | '\\' :: 'u' :: a :: b :: c :: d :: cs => do
    let high ← hex4 a b c d
    if high < 0xD800 ∨ 0xDFFF < high then
      (parseString cs).map fun p => (Char.ofNat high :: p.1, p.2)
    else
      match cs with
      | '\\' :: 'u' :: e :: f :: g :: h :: cs => do
        let low ← hex4 e f g h
        if 0xDBFF < high ∨ low < 0xDC00 ∨ 0xDFFF < low then none
        else
          let c := Char.ofNat (0x10000 + (high - 0xD800) * 0x400 + (low - 0xDC00))
          (parseString cs).map fun p => (c :: p.1, p.2)
      | _ => none
  | '\\' :: c :: cs => do
    let c ← unescape c
    (parseString cs).map fun p => (c :: p.1, p.2)
  | c :: cs =>
    if c = '\\' ∨ c.toNat < 0x20 then none
    else (parseString cs).map fun p => (c :: p.1, p.2)

def skipBlanks (cs : List Char) : List Char :=
  cs.dropWhile fun c => c ∈ [' ', '\t', '\n', '\r']

/-- A decimal number without needless zeros, and what is behind it. -/
def parseNatural (cs : List Char) : Option (ℕ × List Char) :=
  let rest := cs.dropWhile Char.isDigit
  if (toString (leadingNumber cs)).toList ≠ cs.takeWhile Char.isDigit ∨
      rest.head? ∈ [some '.', some 'e', some 'E'] then none
  else some (leadingNumber cs, rest)

section

variable (float : List Char → Option (Json × List Char))

def parseNumber (cs : List Char) : Option (Json × List Char) :=
  let number : Option (Json × List Char) :=
    match cs with
    | '-' :: cs => do
      let (n, rest) ← parseNatural cs
      if n ≤ 2 ^ 63 then some (.integer (-n), rest) else none
    | cs => do
      let (n, rest) ← parseNatural cs
      if n < 2 ^ 64 then some (.unsigned n, rest) else none
  number <|> float cs

/-- An array or an object without anything in it, whose opening bracket has been read. -/
def closed (bracket : Char) (x : Json) (cs : List Char) : Option (Json × List Char) :=
  match skipBlanks cs with
  | c :: cs => if c = bracket then some (x, cs) else none
  | [] => none

mutual

/-- A value, and what is behind it.  The number bounds the nesting. -/
def parseValue : ℕ → List Char → Option (Json × List Char)
  | 0, _ => none
  | n + 1, cs =>
    match skipBlanks cs with
    | [] => none
    | c :: cs =>
      if c = '-' ∨ c.isDigit = true then parseNumber float (c :: cs)
      else
        match c :: cs with
        | 'n' :: 'u' :: 'l' :: 'l' :: cs => some (.null, cs)
        | 't' :: 'r' :: 'u' :: 'e' :: cs => some (.bool true, cs)
        | 'f' :: 'a' :: 'l' :: 's' :: 'e' :: cs => some (.bool false, cs)
        | '"' :: cs => (parseString cs).map fun p => (.str (String.ofList p.1), p.2)
        | '[' :: cs =>
          ((parseElements n cs).map fun p => (.arr p.1, p.2)) <|> closed ']' (.arr []) cs
        | '\x7b' :: cs =>
          ((parseFields n cs []).map fun p => (.obj p.1, p.2)) <|> closed '\x7d' (.obj []) cs
        | _ => none

/-- The elements of an array, up to its closing bracket. -/
def parseElements : ℕ → List Char → Option (List Json × List Char)
  | 0, _ => none
  | n + 1, cs => do
    let (x, cs) ← parseValue n cs
    match skipBlanks cs with
    | ',' :: cs => (parseElements n cs).map fun p => (x :: p.1, p.2)
    | ']' :: cs => some ([x], cs)
    | _ => none

/-- The fields of an object, up to its closing brace, put to those before them. -/
def parseFields : ℕ → List Char → List (String × Json) → Option (List (String × Json) × List Char)
  | 0, _, _ => none
  | n + 1, cs, fields =>
    match skipBlanks cs with
    | '"' :: cs => do
      let (key, cs) ← parseString cs
      match skipBlanks cs with
      | ':' :: cs => do
        let (x, cs) ← parseValue n cs
        let fields := setField (String.ofList key) x fields
        match skipBlanks cs with
        | ',' :: cs => parseFields n cs fields
        | '\x7d' :: cs => some (fields, cs)
        | _ => none
      | _ => none
    | _ => none

end

/-- The value of a whole text. -/
def parse (text : String) : Option Json :=
  match parseValue float (text.length + 1) text.toList with
  | some (x, cs) => if skipBlanks cs = [] then some x else none
  | none => none

end

/-! ### Reading what was written -/

/-- What may stand behind a value. -/
def Ends (rest : List Char) : Prop := ∀ c ∈ rest.head?, c ∈ [',', ']', '\x7d', '\n']

/-- The values that are read back as they are: numbers are of 64 bits, and integers that are not
negative are unsigned. -/
inductive Canonical : Json → Prop
  | null : Canonical .null
  | bool (b : Bool) : Canonical (.bool b)
  | unsigned {n : ℕ} (h : n < 2 ^ 64) : Canonical (.unsigned n)
  | integer {n : ℕ} (hpos : 0 < n) (h : n ≤ 2 ^ 63) : Canonical (.integer (-n))
  | str (s : String) : Canonical (.str s)
  | arr {xs : List Json} (h : ∀ x ∈ xs, Canonical x) : Canonical (.arr xs)
  | obj {fields : List (String × Json)} (h : ∀ f ∈ fields, Canonical f.2)
      (hsorted : fields.Pairwise fun f g => f.1.toList < g.1.toList) : Canonical (.obj fields)

variable {float : List Char → Option (Json × List Char)} {n : ℕ} {rest cs : List Char}

lemma skipBlanks_cons {c : Char} (h : c ∉ [' ', '\t', '\n', '\r']) :
    skipBlanks (c :: cs) = c :: cs :=
  List.dropWhile_cons_of_neg fun hmem => h (of_decide_eq_true hmem)

lemma hexValue_hexDigit : ∀ k < 16, hexValue (hexDigit k) = some k := by decide

lemma parseString_escapeChar (c : Char) :
    parseString (escapeChar c ++ rest) = (parseString rest).map fun p => (c :: p.1, p.2) := by
  unfold escapeChar
  split
  all_goals try rfl
  split
  · rename_i hlow
    have hhex : hex4 '0' '0' (hexDigit (c.toNat / 16)) (hexDigit (c.toNat % 16)) =
        some c.toNat := by
      simp only [hex4, hexValue_hexDigit (c.toNat / 16) (by omega),
        hexValue_hexDigit (c.toNat % 16) (by omega), show hexValue '0' = some 0 from rfl]
      simp
      omega
    simp only [List.cons_append, List.nil_append, parseString, hhex]
    simp [show c.toNat < 0xD800 by omega]
  · rename_i hquote hslash _ _ _ _ _ hlow
    rw [List.singleton_append, parseString, if_neg (not_or.2 ⟨hslash, hlow⟩)]
    · exact hquote
    · exact fun _ _ _ _ _ h => absurd h hslash
    · exact fun _ _ h => absurd h hslash

lemma parseString_flatMap (s : List Char) :
    parseString (s.flatMap escapeChar ++ '"' :: rest) = some (s, rest) := by
  induction s with
  | nil => rfl
  | cons c s ih => rw [List.flatMap_cons, List.append_assoc, parseString_escapeChar, ih]; rfl

lemma toList_quote (s : String) :
    (quote s).toList = '"' :: (s.toList.flatMap escapeChar ++ ['"']) := by
  simp [quote]

lemma parseNatural_toString (hrest : Ends rest) :
    parseNatural ((toString n).toList ++ rest) = some (n, rest) := by
  have hdigits : ∀ c ∈ (toString n).toList, c.isDigit = true := fun _ => isDigit_of_mem_toString
  have hend : rest.takeWhile Char.isDigit = [] ∧ rest.dropWhile Char.isDigit = rest ∧
      rest.head? ∉ [some '.', some 'e', some 'E'] := by
    cases rest with
    | nil => simp
    | cons c rest =>
      have hc := hrest c rfl
      fin_cases hc <;> simp
  have htake : ((toString n).toList ++ rest).takeWhile Char.isDigit = (toString n).toList := by
    rw [List.takeWhile_append_of_pos hdigits, hend.1, List.append_nil]
  have hvalue : leadingNumber ((toString n).toList ++ rest) = n := by
    have hself := leadingNumber_toString n
    rw [leadingNumber, List.takeWhile_eq_self_iff.2 hdigits] at hself
    rw [leadingNumber, htake, hself]
  unfold parseNatural
  dsimp only
  rw [List.dropWhile_append_of_pos hdigits, hend.2.1, hvalue, htake, if_neg]
  exact not_or.2 ⟨fun h => h rfl, hend.2.2⟩

lemma parseValue_number {c : Char} (hc : c = '-' ∨ c.isDigit = true) :
    parseValue float (n + 1) (c :: cs) = parseNumber float (c :: cs) := by
  have hblank : c ∉ [' ', '\t', '\n', '\r'] := by
    intro hmem
    fin_cases hmem <;> revert hc <;> decide
  rw [parseValue, skipBlanks_cons hblank]
  exact if_pos hc

/-- The text of a value is read as the value, with enough fuel. -/
def Reads (float : List Char → Option (Json × List Char)) (x : Json) : Prop :=
  ∀ n rest, x.dump.length < n → Ends rest →
    parseValue float n (x.dump.toList ++ rest) = some (x, rest)

lemma Reads.of_succ {x : Json} (h : ∀ n rest, x.dump.length ≤ n → Ends rest →
    parseValue float (n + 1) (x.dump.toList ++ rest) = some (x, rest)) : Reads float x
  | 0, _, hn, _ => absurd hn (Nat.not_lt_zero _)
  | n + 1, rest, hn, hrest => h n rest (Nat.le_of_lt_succ hn) hrest

lemma reads_unsigned (h : n < 2 ^ 64) : Reads float (.unsigned n) := by
  refine .of_succ fun fuel rest _ hrest => ?_
  have hread := parseNatural_toString (n := n) hrest
  rw [dump]
  cases hlist : (toString n).toList with
  | nil => exact absurd ((toList_toString n).symm.trans hlist) Nat.toDigits_ne_nil
  | cons c cs =>
    have hdigit := isDigit_of_mem_toString (hlist ▸ List.mem_cons_self : c ∈ (toString n).toList)
    rw [hlist, List.cons_append] at hread
    rw [List.cons_append, parseValue_number (.inr hdigit), parseNumber, hread]
    · simp only [Option.bind_eq_bind, Option.bind_some, if_pos h]
      rfl
    · rintro cs' heq
      rw [(List.cons.inj heq).1] at hdigit
      cases hdigit

lemma reads_integer (hpos : 0 < n) (h : n ≤ 2 ^ 63) : Reads float (.integer (-n)) := by
  refine .of_succ fun fuel rest _ hrest => ?_
  have htext : (toString (-(n : ℤ))).toList = '-' :: (toString n).toList := by
    rw [Int.toString_eq_repr, Int.repr_eq_if, if_neg (by omega), neg_neg, Int.toNat_natCast,
      String.toList_append, ← Nat.toString_eq_repr]
    rfl
  rw [dump, htext, List.cons_append, parseValue_number (.inl rfl), parseNumber,
    parseNatural_toString hrest]
  simp only [Option.bind_eq_bind, Option.bind_some, if_pos h]
  rfl

lemma parseElements_dump {xs : List Json} (hxs : ∀ x ∈ xs, Reads float x) (hne : xs ≠ [])
    (hn : (dumpElements xs).length + 1 < n) :
    parseElements float n ((dumpElements xs).toList ++ ']' :: rest) = some (xs, rest) := by
  induction xs generalizing n with
  | nil => exact absurd rfl hne
  | cons x xs ih =>
    obtain ⟨n, rfl⟩ := Nat.exists_eq_succ_of_ne_zero (by omega : n ≠ 0)
    have hx := hxs x List.mem_cons_self
    cases xs with
    | nil =>
      rw [dumpElements] at hn ⊢
      rw [parseElements, hx n (']' :: rest) (by omega) (by simp [Ends])]
      rfl
    | cons y ys =>
      rw [dumpElements, String.length_append, String.length_append] at hn
      have hcomma : ",".length = 1 := rfl
      have hrest := ih (n := n) (fun z hz => hxs z (List.mem_cons_of_mem _ hz)) (by simp)
        (by omega)
      rw [dumpElements, String.toList_append, String.toList_append, List.append_assoc,
        List.append_assoc, parseElements, hx n _ (by omega) (by simp [Ends])]
      exact congrArg (Option.map fun p => (x :: p.1, p.2)) hrest

lemma setField_of_lt {key : String} {x : Json} {fields : List (String × Json)}
    (h : ∀ f ∈ fields, f.1.toList < key.toList) : setField key x fields = fields ++ [(key, x)] := by
  induction fields with
  | nil => rfl
  | cons f fields ih =>
    have hf := h f List.mem_cons_self
    rw [setField, if_neg (lt_asymm hf), if_pos hf, ih fun g hg => h g (List.mem_cons_of_mem _ hg)]
    rfl

lemma parseFields_field {key : String} {x : Json} {before : List (String × Json)}
    (hx : Reads float x) (hn : x.dump.length < n) (hkey : ∀ f ∈ before, f.1.toList < key.toList) {c : Char}
    (hc : c = ',' ∨ c = '\x7d') :
    parseFields float (n + 1) ((quote key).toList ++ ':' :: (x.dump.toList ++ c :: rest)) before =
      if c = ',' then parseFields float n rest (before ++ [(key, x)])
      else some (before ++ [(key, x)], rest) := by
  have htext : (quote key).toList ++ ':' :: (x.dump.toList ++ c :: rest) =
      '"' :: (key.toList.flatMap escapeChar ++ '"' :: ':' :: (x.dump.toList ++ c :: rest)) := by
    rw [toList_quote]
    simp
  have hvalue := hx n (c :: rest) hn (by rcases hc with rfl | rfl <;> simp [Ends])
  rw [htext, parseFields, skipBlanks_cons (by decide)]
  simp only [parseString_flatMap, Option.bind_eq_bind, Option.bind_some, skipBlanks_cons
    (show ':' ∉ [' ', '\t', '\n', '\r'] by decide), hvalue, String.ofList_toList, setField_of_lt hkey]
  rcases hc with rfl | rfl
  · rfl
  · rfl

lemma parseFields_dump {before fields : List (String × Json)}
    (hfields : ∀ f ∈ fields, Reads float f.2)
    (hsorted : (before ++ fields).Pairwise fun f g => f.1.toList < g.1.toList) (hne : fields ≠ [])
    (hn : (dumpFields fields).length + 1 < n) :
    parseFields float n ((dumpFields fields).toList ++ '\x7d' :: rest) before =
      some (before ++ fields, rest) := by
  induction fields generalizing n before with
  | nil => exact absurd rfl hne
  | cons f fields ih =>
    obtain ⟨key, x⟩ := f
    obtain ⟨n, rfl⟩ := Nat.exists_eq_succ_of_ne_zero (by omega : n ≠ 0)
    have hx : Reads float x := hfields _ List.mem_cons_self
    have hkey : ∀ f ∈ before, f.1.toList < key.toList := fun f hf =>
      (List.pairwise_append.1 hsorted).2.2 f hf _ List.mem_cons_self
    cases fields with
    | nil =>
      simp only [dumpFields, String.length_append] at hn
      have htext : (dumpFields [(key, x)]).toList ++ '\x7d' :: rest =
          (quote key).toList ++ ':' :: (x.dump.toList ++ '\x7d' :: rest) := by
        simp [dumpFields]
      rw [htext, parseFields_field hx (by omega) hkey (.inr rfl), if_neg (by decide)]
    | cons g fields =>
      simp only [dumpFields, String.length_append] at hn
      have htext : (dumpFields ((key, x) :: g :: fields)).toList ++ '\x7d' :: rest =
          (quote key).toList ++ ':' :: (x.dump.toList ++ ',' ::
            ((dumpFields (g :: fields)).toList ++ '\x7d' :: rest)) := by
        simp [dumpFields]
      have hcomma : ",".length = 1 := rfl
      rw [htext, parseFields_field hx (by omega) hkey (.inl rfl), if_pos rfl,
        ih (fun f hf => hfields f (List.mem_cons_of_mem _ hf)) (by simpa using hsorted) (by simp)
          (by omega), List.append_assoc]
      rfl

lemma Canonical.reads {x : Json} (h : Canonical x) : Reads float x := by
  induction h with
  | null => exact .of_succ fun n rest _ _ => rfl
  | bool b => exact .of_succ fun n rest _ _ => by cases b <;> rfl
  | unsigned h => exact reads_unsigned h
  | integer hpos h => exact reads_integer hpos h
  | str s =>
    refine .of_succ fun n rest hn _ => ?_
    rw [dump, toList_quote, List.cons_append, List.append_assoc, parseValue,
      skipBlanks_cons (by decide)]
    change (parseString (s.toList.flatMap escapeChar ++ '"' :: rest)).map _ = _
    rw [parseString_flatMap]
    simp
  | @arr xs _ ih =>
    refine .of_succ fun n rest hn _ => ?_
    have htext : (Json.arr xs).dump.toList ++ rest =
        '[' :: ((dumpElements xs).toList ++ ']' :: rest) := by
      simp [dump]
    rw [htext, parseValue, skipBlanks_cons (by decide)]
    by_cases hne : xs = []
    · subst hne
      rcases n with _ | _ | n <;> rfl
    · have hlen : (Json.arr xs).dump.length = 1 + (dumpElements xs).length + 1 := by
        simp only [dump, String.length_append]
        rfl
      change ((parseElements float n _).map _ <|> _) = _
      rw [parseElements_dump ih hne (by omega)]
      rfl
  | @obj fields _ hsorted ih =>
    refine .of_succ fun n rest hn _ => ?_
    have htext : (Json.obj fields).dump.toList ++ rest =
        '\x7b' :: ((dumpFields fields).toList ++ '\x7d' :: rest) := by
      simp [dump]
    rw [htext, parseValue, skipBlanks_cons (by decide)]
    by_cases hne : fields = []
    · subst hne
      rcases n with _ | _ | n <;> rfl
    · have hlen : (Json.obj fields).dump.length = 1 + (dumpFields fields).length + 1 := by
        simp only [dump, String.length_append]
        rfl
      change ((parseFields float n _ []).map _ <|> _) = _
      have hread := @parseFields_dump float n rest [] fields ih hsorted hne (by omega)
      rw [hread]
      rfl

/-- **A value that is written is read back**, also with the end of a line behind it. -/
lemma parse_dump {x : Json} (h : Canonical x) {text : String} (htext : text = "" ∨ text = "\n") :
    parse float (x.dump ++ text) = some x := by
  have hends : Ends text.toList := by rcases htext with rfl | rfl <;> simp [Ends]
  rw [parse, String.toList_append, h.reads _ _ (by rw [String.length_append]; omega) hends]
  rcases htext with rfl | rfl <;> rfl

end Json

end MuduoChat
