import MuduoChat.Codec.JsonText

/-!
# Replies to chat commands

The replies are written by hand, without the JSON library.  What is written is, byte for byte, what
the library writes for the objects, and it is parsed to their fields.  A string is escaped byte by
byte, where the library goes by characters; the two agree because the bytes of a character beyond
the first 128 are never escaped.
-/

namespace MuduoChat

/-! ### Bytes -/

def utf8Bytes (s : String) : List UInt8 := s.toList.flatMap String.utf8EncodeChar

/-- The value of a text that is given by its bytes. -/
def Json.parseBytes (float : List Char → Option (Json × List Char)) (bytes : List UInt8) :
    Option Json :=
  (String.fromUTF8? bytes.toByteArray).bind (Json.parse float)

/-! ### Replies -/

/-- What is written for a byte of a string. -/
def escapeByte (c : UInt8) : List UInt8 :=
  match c with
  | 0x08 => utf8Bytes "\\b"
  | 0x09 => utf8Bytes "\\t"
  | 0x0A => utf8Bytes "\\n"
  | 0x0C => utf8Bytes "\\f"
  | 0x0D => utf8Bytes "\\r"
  | 0x22 => utf8Bytes "\\\""
  | 0x5C => utf8Bytes "\\\\"
  | c =>
    if c ≤ 0x1F then
      utf8Bytes ("\\u00" ++
        String.ofList [Json.hexDigit (c.toNat / 16), Json.hexDigit (c.toNat % 16)])
    else [c]

def appendJsonString (out s : List UInt8) : List UInt8 :=
  out ++ (0x22 :: (s.flatMap escapeByte ++ [0x22]))

def encodeMessageAcceptedReply (msgid : Int32) (clientMessageId : List UInt8)
    (messageId conversationId sequence : UInt64) (duplicate : Bool) : List UInt8 :=
  appendJsonString (utf8Bytes "\x7b\"client_message_id\":") clientMessageId ++
    utf8Bytes (",\"conversation_id\":" ++ toString conversationId.toNat ++ ",\"duplicate\":" ++
      (if duplicate then "true" else "false") ++ ",\"message_id\":" ++ toString messageId.toNat ++
      ",\"msgid\":" ++ toString msgid.toInt ++ ",\"sequence\":" ++ toString sequence.toNat ++
      "\x7d\n")

def encodeErrorReply (msgid errnoCode : Int32) (errmsg : List UInt8)
    (clientMessageId : Option (List UInt8)) : List UInt8 :=
  let out := utf8Bytes "\x7b"
  let out :=
    match clientMessageId with
    | some id => appendJsonString (out ++ utf8Bytes "\"client_message_id\":") id ++ utf8Bytes ","
    | none => out
  appendJsonString (out ++ utf8Bytes "\"errmsg\":") errmsg ++
    utf8Bytes (",\"errno\":" ++ toString errnoCode.toInt ++ ",\"msgid\":" ++
      toString msgid.toInt ++ "\x7d\n")

def buildMessageAcceptedReply (msgid : Int32) (clientMessageId : String)
    (messageId conversationId sequence : UInt64) (duplicate : Bool) : Json :=
  .assigned [("msgid", .integer msgid.toInt), ("client_message_id", .str clientMessageId),
    ("message_id", .unsigned messageId.toNat), ("conversation_id", .unsigned conversationId.toNat),
    ("sequence", .unsigned sequence.toNat), ("duplicate", .bool duplicate)]

def buildErrorReply (msgid errnoCode : Int32) (errmsg : String) (clientMessageId : Option String) :
    Json :=
  .assigned ([("msgid", .integer msgid.toInt), ("errno", .integer errnoCode.toInt),
    ("errmsg", .str errmsg)] ++
      (clientMessageId.map fun id => ("client_message_id", .str id)).toList)

variable {msgid errnoCode : Int32} {clientMessageId errmsg : String}
  {messageId conversationId sequence : UInt64} {duplicate : Bool}

lemma buildMessageAcceptedReply_eq :
    buildMessageAcceptedReply msgid clientMessageId messageId conversationId sequence duplicate =
      .obj [("client_message_id", .str clientMessageId),
        ("conversation_id", .unsigned conversationId.toNat), ("duplicate", .bool duplicate),
        ("message_id", .unsigned messageId.toNat), ("msgid", .integer msgid.toInt),
        ("sequence", .unsigned sequence.toNat)] := by
  simp +decide [buildMessageAcceptedReply, Json.assigned, Json.setField]

lemma buildErrorReply_eq (client : Option String) :
    buildErrorReply msgid errnoCode errmsg client =
      .obj ((client.map fun id => ("client_message_id", Json.str id)).toList ++
        [("errmsg", .str errmsg), ("errno", .integer errnoCode.toInt),
          ("msgid", .integer msgid.toInt)]) := by
  cases client <;> simp +decide [buildErrorReply, Json.assigned, Json.setField]

/-! ### Bytes of texts -/

lemma utf8Bytes_append (s t : String) : utf8Bytes (s ++ t) = utf8Bytes s ++ utf8Bytes t := by
  simp [utf8Bytes]

lemma le_of_mem_utf8EncodeChar {c : Char} (hc : 128 ≤ c.toNat) {b : UInt8}
    (hb : b ∈ String.utf8EncodeChar c) : 128 ≤ b.toNat := by
  have hval : ¬c.val.toNat ≤ 127 := by
    change ¬c.toNat ≤ 127
    omega
  simp only [String.utf8EncodeChar, if_neg hval] at hb
  split_ifs at hb <;> simp only [List.mem_cons, List.not_mem_nil, or_false] at hb
  all_goals
    rcases hb with rfl | rfl | rfl | rfl <;> rw [UInt8.toNat_ofNat'] <;> omega

/-- A character is escaped byte by byte as it is as a whole: only characters of one byte are. -/
lemma flatMap_escapeByte (c : Char) :
    (String.utf8EncodeChar c).flatMap escapeByte =
      (Json.escapeChar c).flatMap String.utf8EncodeChar := by
  by_cases hc : c.toNat < 128
  · have hascii : ∀ n < 128, (String.utf8EncodeChar (Char.ofNat n)).flatMap escapeByte =
        (Json.escapeChar (Char.ofNat n)).flatMap String.utf8EncodeChar := by decide +kernel
    have hself := hascii c.toNat hc
    rwa [Char.ofNat_toNat] at hself
  · have hlarge : ∀ n < 256, 128 ≤ n → escapeByte (UInt8.ofNat n) = [UInt8.ofNat n] := by
      decide +kernel
    have hbytes : (String.utf8EncodeChar c).flatMap escapeByte = String.utf8EncodeChar c := by
      refine (List.flatMap_congr fun b hb => ?_).trans (List.flatMap_singleton' _)
      have hself := hlarge b.toNat b.toNat_lt (le_of_mem_utf8EncodeChar (by omega) hb)
      rwa [UInt8.ofNat_toNat] at hself
    have hchar : Json.escapeChar c = [c] := by
      unfold Json.escapeChar
      split
      all_goals first | exact absurd (by decide) hc | exact if_neg (by omega)
    rw [hbytes, hchar, List.flatMap_singleton]

lemma appendJsonString_utf8Bytes (out : List UInt8) (s : String) :
    appendJsonString out (utf8Bytes s) = out ++ utf8Bytes (Json.quote s) := by
  have hflat : (utf8Bytes s).flatMap escapeByte =
      (s.toList.flatMap Json.escapeChar).flatMap String.utf8EncodeChar := by
    rw [utf8Bytes, List.flatMap_assoc, List.flatMap_assoc]
    exact List.flatMap_congr fun c _ => flatMap_escapeByte c
  rw [appendJsonString, hflat, utf8Bytes, Json.toList_quote, List.flatMap_cons, List.flatMap_append]
  rfl

lemma parseBytes_utf8Bytes (float : List Char → Option (Json × List Char)) (s : String) :
    Json.parseBytes float (utf8Bytes s) = Json.parse float s := by
  have hbytes : (utf8Bytes s).toByteArray = s.toByteArray := String.utf8Encode_toList
  rw [Json.parseBytes, hbytes, String.fromUTF8?, dif_pos s.isValidUTF8]
  rfl

/-! ### Objects -/

/-- A number with the kind that the parser gives it: an integer that is not negative is unsigned. -/
def Json.asRead : Json → Json
  | .integer z => if 0 ≤ z then .unsigned z.toNat else .integer z
  | x => x

/-- An object whose numbers are as the parser gives them. -/
def Json.objectAsRead : Json → Json
  | .obj fields => .obj (fields.map fun f => (f.1, f.2.asRead))
  | x => x.asRead

namespace Json

lemma dump_asRead (x : Json) : x.asRead.dump = x.dump := by
  cases x with
  | integer z =>
    rw [asRead]
    split
    · rename_i hz
      rw [dump, dump, Int.toString_eq_repr, Int.repr_eq_if, if_pos hz, Nat.toString_eq_repr]
    · rfl
  | _ => rfl

lemma dumpFields_asRead (fields : List (String × Json)) :
    dumpFields (fields.map fun f => (f.1, f.2.asRead)) = dumpFields fields := by
  induction fields with
  | nil => rfl
  | cons f fields ih =>
    cases fields with
    | nil => simp only [List.map_cons, List.map_nil, dumpFields, dump_asRead]
    | cons g fields =>
      rw [List.map_cons] at ih ⊢
      rw [List.map_cons, dumpFields, ih, dump_asRead, dumpFields]

lemma canonical_integer (z : Int32) : Canonical (integer z.toInt).asRead := by
  have hlo := z.le_toInt
  have hhi := z.toInt_lt
  rw [asRead]
  split
  · exact .unsigned (by omega)
  · have hz : z.toInt = -((-z.toInt).toNat : ℤ) := by omega
    rw [hz]
    exact .integer (by omega) (by omega)

lemma parseBytes_line (float : List Char → Option (Json × List Char))
    {fields : List (String × Json)} (h : ∀ f ∈ fields, Canonical f.2.asRead)
    (hsorted : fields.Pairwise fun f g => f.1.toList < g.1.toList) :
    parseBytes float (utf8Bytes ((obj fields).dump ++ "\n")) = some (obj fields).objectAsRead := by
  have hcanonical : Canonical (obj fields).objectAsRead :=
    .obj (List.forall_mem_map.2 h) (List.pairwise_map.2 hsorted)
  have hdump : (obj fields).objectAsRead.dump = (obj fields).dump := by
    rw [objectAsRead, dump, dumpFields_asRead, dump]
  rw [parseBytes_utf8Bytes, ← hdump, parse_dump hcanonical (.inr rfl)]

end Json

lemma encodeMessageAcceptedReply_eq :
    encodeMessageAcceptedReply msgid (utf8Bytes clientMessageId) messageId conversationId sequence
      duplicate = utf8Bytes ((buildMessageAcceptedReply msgid clientMessageId messageId
        conversationId sequence duplicate).dump ++ "\n") := by
  rw [encodeMessageAcceptedReply, appendJsonString_utf8Bytes, ← utf8Bytes_append,
    ← utf8Bytes_append, buildMessageAcceptedReply_eq]
  refine congrArg utf8Bytes (String.toList_inj.1 ?_)
  simp [Json.dump, Json.dumpFields, Json.quote, Json.escapeChar]

lemma encodeErrorReply_eq (client : Option String) :
    encodeErrorReply msgid errnoCode (utf8Bytes errmsg) (client.map utf8Bytes) =
      utf8Bytes ((buildErrorReply msgid errnoCode errmsg client).dump ++ "\n") := by
  rw [buildErrorReply_eq]
  cases client
  all_goals
    simp only [Option.map_none, Option.map_some, encodeErrorReply, appendJsonString_utf8Bytes,
      ← utf8Bytes_append]
    refine congrArg utf8Bytes (String.toList_inj.1 ?_)
    simp [Json.dump, Json.dumpFields, Json.quote, Json.escapeChar]

/-- **Replies.**  The two encoders write, byte for byte, what the library writes for the objects,
followed by a line feed; and the line is parsed to an object with the same fields and values. -/
theorem encoded_replies (float : List Char → Option (Json × List Char)) (msgid errnoCode : Int32)
    (clientMessageId errmsg : String) (messageId conversationId sequence : UInt64)
    (duplicate : Bool) (client : Option String) :
    (encodeMessageAcceptedReply msgid (utf8Bytes clientMessageId) messageId conversationId sequence
        duplicate = utf8Bytes ((buildMessageAcceptedReply msgid clientMessageId messageId
          conversationId sequence duplicate).dump ++ "\n") ∧
      Json.parseBytes float (encodeMessageAcceptedReply msgid (utf8Bytes clientMessageId) messageId
        conversationId sequence duplicate) = some (buildMessageAcceptedReply msgid clientMessageId
          messageId conversationId sequence duplicate).objectAsRead) ∧
    encodeErrorReply msgid errnoCode (utf8Bytes errmsg) (client.map utf8Bytes) =
        utf8Bytes ((buildErrorReply msgid errnoCode errmsg client).dump ++ "\n") ∧
      Json.parseBytes float (encodeErrorReply msgid errnoCode (utf8Bytes errmsg)
        (client.map utf8Bytes)) =
          some (buildErrorReply msgid errnoCode errmsg client).objectAsRead := by
  rw [encodeMessageAcceptedReply_eq, encodeErrorReply_eq, buildMessageAcceptedReply_eq,
    buildErrorReply_eq]
  refine ⟨⟨rfl, Json.parseBytes_line float ?_ ?_⟩, rfl, Json.parseBytes_line float ?_ ?_⟩
  · simp only [List.forall_mem_cons, List.not_mem_nil, false_imp_iff, implies_true, and_true]
    exact ⟨.str _, .unsigned conversationId.toNat_lt, .bool _, .unsigned messageId.toNat_lt,
      Json.canonical_integer msgid, .unsigned sequence.toNat_lt⟩
  · simp +decide
  · simp only [List.forall_mem_append, List.forall_mem_cons, List.not_mem_nil, false_imp_iff,
      implies_true, and_true]
    refine ⟨?_, .str _, Json.canonical_integer errnoCode, Json.canonical_integer msgid⟩
    cases client <;> simp [Json.asRead, Json.Canonical.str]
  · cases client <;> simp +decide

end MuduoChat
