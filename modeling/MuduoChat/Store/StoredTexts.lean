import MuduoChat.Codec.JsonText

/-!
# Texts in the store

What the store keeps of a command, beside its content and its client message id, is the text of a
JSON object, and what it keeps of a lease owner is a text with three numbers.  Both are read back as
they were written.  The third number is the boot id, which is to tell the instances of a process
apart.
-/

namespace MuduoChat

/-! ### Snapshots of commands -/

/-- The snapshot of a command that the backfill writes. -/
def OfflineBackfill.encodeCommandSnapshot (cmd : SendMessageCommand) : String :=
  Json.dump <| match cmd.kind with
  | .direct => .assigned [("kind", .str "DIRECT"),
      ("direct_recipient", .unsigned cmd.directRecipient.value)]
  | .group => .assigned [("kind", .str "GROUP"), ("group_id", .unsigned cmd.groupId.value),
      ("members", .arr (cmd.members.map fun u => .unsigned u.value))]

/-- The identifiers of a command are numbers of 64 bits. -/
structure SendMessageCommand.Numbered (cmd : SendMessageCommand) : Prop where
  directRecipient : cmd.directRecipient.value < 2 ^ 64
  groupId : cmd.groupId.value < 2 ^ 64
  members : ∀ u ∈ cmd.members, u.value < 2 ^ 64

section Snapshots

variable {cmd : SendMessageCommand}

/-- The fields of a snapshot stand in the order of their names. -/
lemma encodeCommandSnapshot_eq : encodeCommandSnapshot cmd =
    match cmd.kind with
    | .direct =>
      .obj [("direct_recipient", .unsigned cmd.directRecipient.value), ("kind", .str "DIRECT")]
    | .group =>
      .obj [("group_id", .unsigned cmd.groupId.value), ("kind", .str "GROUP"),
        ("members", .arr (cmd.members.map fun u => .unsigned u.value))] := by
  unfold encodeCommandSnapshot
  cases cmd.kind <;> simp +decide [Json.assigned, Json.setField]

lemma canonical_encodeCommandSnapshot (h : cmd.Numbered) :
    Json.Canonical (encodeCommandSnapshot cmd) := by
  rw [encodeCommandSnapshot_eq]
  split
  · refine .obj ?_ (by simp +decide)
    simp only [List.forall_mem_cons, List.not_mem_nil, false_imp_iff, implies_true, and_true]
    exact ⟨.unsigned h.directRecipient, .str _⟩
  · refine .obj ?_ (by simp +decide)
    simp only [List.forall_mem_cons, List.not_mem_nil, false_imp_iff, implies_true, and_true]
    exact ⟨.unsigned h.groupId, .str _,
      .arr (List.forall_mem_map.2 fun u hu => .unsigned (h.members u hu))⟩

lemma encoders_agree : (encodeCommandSnapshot cmd).dump = encodeOutboxPayload cmd ∧
    OfflineBackfill.encodeCommandSnapshot cmd = encodeOutboxPayload cmd := by
  unfold OfflineBackfill.encodeCommandSnapshot encodeOutboxPayload encodeCommandSnapshot
  cases cmd.kind <;> exact ⟨rfl, rfl⟩

lemma mapM_getUInt64 {users : List UserId} (h : ∀ u ∈ users, u.value < 2 ^ 64) :
    (users.map fun u => Json.unsigned u.value).mapM Json.getUInt64 =
      .ok (users.map fun u => u.value) := by
  induction users with
  | nil => rfl
  | cons u users ih =>
    have hu : u.value % 2 ^ 64 = u.value := Nat.mod_eq_of_lt (h u List.mem_cons_self)
    rw [List.map_cons, List.mapM_cons, ih fun v hv => h v (List.mem_cons_of_mem _ hv)]
    simp only [Json.getUInt64, hu]
    rfl

lemma samePayload_decodeCommandSnapshot (h : cmd.Numbered) :
    ∃ cmd', decodeCommandSnapshot (encodeCommandSnapshot cmd) cmd.content cmd.clientMessageId =
      .ok cmd' ∧ samePayload cmd' cmd = true := by
  cases hkind : cmd.kind with
  | direct =>
    have hread : decodeCommandSnapshot (encodeCommandSnapshot cmd) cmd.content
        cmd.clientMessageId = .ok { cmd with groupId := {}, members := [] } := by
      simp only [encodeCommandSnapshot_eq, hkind]
      change Except.ok { cmd with
        kind := .direct, directRecipient := ⟨cmd.directRecipient.value % 2 ^ 64⟩, groupId := {}
        members := [] } = _
      rw [Nat.mod_eq_of_lt h.directRecipient]
    exact ⟨_, hread, by simp [samePayload, hkind]⟩
  | group =>
    have hread : decodeCommandSnapshot (encodeCommandSnapshot cmd) cmd.content
        cmd.clientMessageId = .ok { cmd with directRecipient := {} } := by
      simp only [encodeCommandSnapshot_eq, hkind]
      change Except.mapError _ (Except.bind ((cmd.members.map fun u =>
        Json.unsigned u.value).mapM Json.getUInt64) _) = _
      rw [mapM_getUInt64 h.members]
      change Except.ok { cmd with
        kind := .group, directRecipient := {}, groupId := ⟨cmd.groupId.value % 2 ^ 64⟩
        members := (cmd.members.map fun u : UserId => u.value).map fun u => ⟨u⟩ } = _
      rw [Nat.mod_eq_of_lt h.groupId, List.map_map]
      simp [Function.comp_def]
    exact ⟨_, hread, by simp [samePayload, hkind]⟩

end Snapshots

/-- **What storage keeps.**  A command is read back from the text of its snapshot with the same
payload; the three encoders write the same text; and a lease owner is read back from its text. -/
theorem stored_texts_survive (float : List Char → Option (Json × List Char))
    (cmd : SendMessageCommand) (h : cmd.Numbered) :
    (∃ payload cmd', Json.parse float (encodeCommandSnapshot cmd).dump = some payload ∧
      decodeCommandSnapshot payload cmd.content cmd.clientMessageId = .ok cmd' ∧
        samePayload cmd' cmd = true) ∧
    ((encodeCommandSnapshot cmd).dump = encodeOutboxPayload cmd ∧
      OfflineBackfill.encodeCommandSnapshot cmd = encodeOutboxPayload cmd) ∧
    ∀ (owner : SessionIdentity) (bootId : ℕ), owner.userId.value ≠ 0 →
      owner.userId.value < 2 ^ 64 → owner.generation < 2 ^ 64 → bootId < 2 ^ 64 →
        decodeLeaseOwner (encodeLeaseOwner owner bootId).toList = .ok (owner, bootId) := by
  obtain ⟨cmd', hread, hsame⟩ := samePayload_decodeCommandSnapshot h
  have hparse := @Json.parse_dump float _ (canonical_encodeCommandSnapshot h) _ (.inl rfl)
  rw [String.append_empty] at hparse
  exact ⟨⟨_, cmd', hparse, hread, hsame⟩, encoders_agree,
    fun _ _ => decodeLeaseOwner_encodeLeaseOwner⟩

theorem stored_texts_survive_group :
    OfflineBackfill.encodeCommandSnapshot { kind := .group, groupId := ⟨7⟩, members := [⟨1⟩] } =
      encodeOutboxPayload { kind := .group, groupId := ⟨7⟩, members := [⟨1⟩] } :=
  (stored_texts_survive (fun _ => none) _ ⟨by decide, by decide, by decide⟩).2.1.2

/-! ### Boot ids -/

/-- The boot id of an instance: of the process id, the number of instances that the process has made
before, and the time. -/
def nextBootId (pid counter : UInt64) (now : Int64) : UInt64 :=
  (pid <<< (52 : UInt64)) ^^^ (now.toUInt64 &&& (0xFFFFFFFFFFFFF : UInt64)) ^^^
    ((counter &&& (0xFFF : UInt64)) <<< (60 : UInt64))

section BootIds

variable {pid c1 c2 : UInt64} {t1 t2 : Int64}

lemma toNat_counter (c : UInt64) :
    ((c &&& (0xFFF : UInt64)) <<< (60 : UInt64)).toNat = c.toNat % 16 * 2 ^ 60 := by
  have hmask : (c &&& 0xFFF).toNat = c.toNat % 2 ^ 12 :=
    (UInt64.toNat_and c 0xFFF).trans (Nat.and_two_pow_sub_one_eq_mod c.toNat 12)
  rw [UInt64.toNat_shiftLeft, hmask, Nat.shiftLeft_eq]
  change c.toNat % 2 ^ 12 * 2 ^ 60 % 2 ^ 64 = _
  omega

lemma toNat_time (t : Int64) :
    (t.toUInt64 &&& (0xFFFFFFFFFFFFF : UInt64)).toNat = t.toUInt64.toNat % 2 ^ 52 :=
  (UInt64.toNat_and _ _).trans (Nat.and_two_pow_sub_one_eq_mod _ 52)

lemma eq_of_mod_eq (h : |t1.toInt - t2.toInt| < 2 ^ 52)
    (hmod : t1.toUInt64.toNat % 2 ^ 52 = t2.toUInt64.toNat % 2 ^ 52) : t1 = t2 := by
  have hcast (t : Int64) : ∃ k : ℤ, t.toInt = t.toUInt64.toNat - 2 ^ 64 * k := by
    have hsigned := BitVec.toInt_eq_toNat_cond t.toBitVec
    change t.toInt = if 2 * t.toUInt64.toNat < 2 ^ 64 then (t.toUInt64.toNat : ℤ)
      else t.toUInt64.toNat - 2 ^ 64 at hsigned
    split at hsigned
    · exact ⟨0, by omega⟩
    · exact ⟨1, by omega⟩
  obtain ⟨k1, h1⟩ := hcast t1
  obtain ⟨k2, h2⟩ := hcast t2
  refine Int64.toInt_inj.1 ?_
  rw [abs_lt] at h
  omega

lemma nextBootId_eq_iff (h : |t1.toInt - t2.toInt| < 2 ^ 52) :
    nextBootId pid c1 t1 = nextBootId pid c2 t2 ↔ t1 = t2 ∧ c1 % 16 = c2 % 16 := by
  have hcounter : (c1 &&& (0xFFF : UInt64)) <<< (60 : UInt64) =
      (c2 &&& (0xFFF : UInt64)) <<< (60 : UInt64) ↔ c1 % 16 = c2 % 16 := by
    rw [← UInt64.toNat_inj, toNat_counter, toNat_counter, ← UInt64.toNat_inj, UInt64.toNat_mod,
      UInt64.toNat_mod]
    change _ ↔ c1.toNat % 16 = c2.toNat % 16
    omega
  rw [nextBootId, nextBootId, UInt64.xor_assoc, UInt64.xor_assoc, UInt64.xor_right_inj]
  constructor
  · intro heq
    -- the counter does not reach the bits of the time
    have hlow := congrArg (fun x : UInt64 => x.toNat % 2 ^ 52) heq
    simp only [UInt64.toNat_xor, Nat.xor_mod_two_pow, toNat_time, toNat_counter] at hlow
    rw [show c1.toNat % 16 * 2 ^ 60 % 2 ^ 52 = 0 by omega,
      show c2.toNat % 16 * 2 ^ 60 % 2 ^ 52 = 0 by omega, Nat.xor_zero, Nat.xor_zero, Nat.mod_mod,
      Nat.mod_mod] at hlow
    obtain rfl := eq_of_mod_eq h hlow
    exact ⟨rfl, hcounter.1 ((UInt64.xor_right_inj _).1 heq)⟩
  · rintro ⟨rfl, hc⟩
    rw [hcounter.2 hc]

/-- **Boot ids of one process.**  Two instances with readings of the clock less than `2 ^ 52` apart
have different boot ids, and different texts of a lease owner, exactly if the readings differ or the
counters differ modulo sixteen. -/
theorem nextBootId_ne_iff (pid c1 c2 : UInt64) (t1 t2 : Int64)
    (h : |t1.toInt - t2.toInt| < 2 ^ 52) :
    (nextBootId pid c1 t1 ≠ nextBootId pid c2 t2 ↔ t1 ≠ t2 ∨ c1 % 16 ≠ c2 % 16) ∧
      ∀ owner : SessionIdentity, owner.userId.value ≠ 0 →
        (encodeLeaseOwner owner (nextBootId pid c1 t1).toNat ≠
          encodeLeaseOwner owner (nextBootId pid c2 t2).toNat ↔ t1 ≠ t2 ∨ c1 % 16 ≠ c2 % 16) := by
  have hne : nextBootId pid c1 t1 ≠ nextBootId pid c2 t2 ↔ t1 ≠ t2 ∨ c1 % 16 ≠ c2 % 16 := by
    rw [Ne, nextBootId_eq_iff h, not_and_or]
  refine ⟨hne, fun owner howner => ?_⟩
  rw [← hne, encodeLeaseOwner, encodeLeaseOwner, if_neg howner, if_neg howner]
  refine not_congr ⟨fun htext => ?_, fun hid => by rw [hid]⟩
  have hdigits := congrArg String.toList htext
  simp only [String.toList_append, List.append_cancel_left_eq] at hdigits
  have hnumber := congrArg leadingNumber hdigits
  rw [leadingNumber_toString, leadingNumber_toString] at hnumber
  exact UInt64.toNat_inj.1 hnumber

theorem nextBootId_ne_next :
    nextBootId 4711 0 1000 ≠ nextBootId 4711 1 1000 ∧
      encodeLeaseOwner ⟨⟨7⟩, 1⟩ (nextBootId 4711 0 1000).toNat ≠
        encodeLeaseOwner ⟨⟨7⟩, 1⟩ (nextBootId 4711 1 1000).toNat :=
  have h := nextBootId_ne_iff 4711 0 1 1000 1000 (by decide)
  ⟨h.1.2 (.inr (by decide)), (h.2 ⟨⟨7⟩, 1⟩ (by decide)).2 (.inr (by decide))⟩

/-- The counters differ modulo 4096, but the boot ids do not: of the counter, only four bits are
left. -/
theorem nextBootId_collision :
    (0 : UInt64) % 4096 ≠ 16 % 4096 ∧ nextBootId 4711 0 1000 = nextBootId 4711 16 1000 := by
  decide

end BootIds

end MuduoChat
