import SceneGraph.Proofs.OperationLogs

/-!
# Payload upgrades: bringing everything up to date first, and reading it then

Reading a stored operation upgrades the payload of a batch before it looks at the members, and those
may then have versions of their own. Here all upgrades come first. Their result is a relation, not a
function: what an upgrade makes of a batch may again be old, without end.
-/
namespace SceneGraph

namespace Edit
open Shape

private theorem shapes_yield_typeName :
    ∀ entry ∈ shapes, entry.2.Yields fun e => e.typeName = entry.1 := by
  simp only [shapes, List.forall_mem_cons]
  exact ⟨.map_any fun _ => rfl, .seq_any (.map_any fun _ _ => rfl),
    .seq_any (.seq_any (.seq_any (.map_any fun _ _ _ _ => rfl))),
    .seq_any (.seq_any (.map_any fun _ _ _ => rfl)), .seq_any (.map_any fun _ _ => rfl),
    .seq_any (.seq_any (.seq_any (.seq_any (.map_any fun _ _ _ _ _ => rfl)))),
    .seq_any (.seq_any (.map_any fun _ _ _ => rfl)),
    .seq_any (.seq_any (.seq_any (.map_any fun _ _ _ _ => rfl))),
    .seq_any (.seq_any (.seq_any (.seq_any (.map_any fun _ _ _ _ _ => rfl)))),
    .map_any fun _ => rfl, .seq_any (.map_any fun _ _ => rfl),
    .seq_any (.seq_any (.seq_any (.seq_any (.map_any fun _ _ _ _ _ => rfl)))),
    .seq_any (.seq_any (.seq_any (.map_any fun _ _ _ _ => rfl))),
    .seq_any (.seq_any (.seq_any (.map_any fun _ _ _ _ => rfl))),
    .seq_any (.seq_any (.seq_any (.seq_any (.map_any fun _ _ _ _ _ => rfl)))),
    List.forall_mem_nil _⟩

theorem typeName_ofPayload {opType : String} {payload : Json} {e : Edit}
    (h : ofPayload opType payload = .ok e) : e.typeName = opType :=
  @ofPayload_yields (fun opType e => e.typeName = opType) shapes_yield_typeName _ _ _ h

end Edit

namespace OpWire

/-- The stored operation with a payload of the current version. -/
def current (w : OpWire) (payload : Json) : OpWire := { w with version := none, payload }

/-- In the payload there are no members to be read: it is not that of a batch, or has no list. -/
def Plain (w : OpWire) (payload : Json) : Prop :=
  w.opType = Op.batchType → ∀ subs, Op.members payload ≠ .ok subs

mutual
/-- The second operation is the first with all payloads brought up to date, its own and those of
operations within it. -/
inductive Upgraded (m : Migrations) : OpWire → OpWire → Prop
  | plain {w : OpWire} {payload : Json}
      (hu : m.upgrade w.opType w.versionOrCurrent w.payload = .ok payload)
      (hp : w.Plain payload) : Upgraded m w (w.current payload)
  | batch {w : OpWire} {fields : Bag} {subs subs' : List Json} (hb : w.opType = Op.batchType)
      (hu : m.upgrade w.opType w.versionOrCurrent w.payload = .ok (.obj fields))
      (hf : fields.find? "ops" = some (.arr subs)) (hs : UpgradedAll m subs subs') :
      Upgraded m w (w.current (.obj (Dict.insert fields "ops" (.arr subs'))))

inductive UpgradedAll (m : Migrations) : List Json → List Json → Prop
  | nil : UpgradedAll m [] []
  | cons {sub : Json} {subs subs' : List Json} {w w' : OpWire}
      (hw : reader.fromJson sub = .ok w) (h : Upgraded m w w') (hs : UpgradedAll m subs subs') :
      UpgradedAll m (sub :: subs) (w'.layout.toJson :: subs')
end

variable {m : Migrations} {w w' : OpWire}

theorem Upgraded.version (h : Upgraded m w w') : w'.version = none := by
  cases h <;> rfl

theorem Upgraded.reader_layout (h : Upgraded m w w') :
    reader.fromJson w'.layout.toJson = .ok w' :=
  OpWire.reader_layout fun v hv => by simp [h.version] at hv

end OpWire

namespace Op
open OpWire (Upgraded UpgradedAll)
variable {m m' : Migrations} {w w' w'' : OpWire} {sub payload payload' : Json}
  {subs subs' subs'' : List Json} {fields : Bag} {limit limit' : Nat}

theorem members_ok_iff : members payload = .ok subs ↔
    ∃ fields, payload = .obj fields ∧ fields.find? "ops" = some (.arr subs) := by
  unfold members
  constructor
  · intro h
    split at h
    · rename_i ops hops
      obtain rfl := Except.ok.inj h
      obtain ⟨found, hfound, harr⟩ := Option.bind_eq_some_iff.mp hops
      cases payload with
      | obj fields =>
        cases found with
        | arr items =>
          obtain rfl := Option.some.inj harr
          exact ⟨fields, rfl, hfound⟩
        | _ => contradiction
      | _ => contradiction
    · contradiction
  · rintro ⟨fields, rfl, hf⟩
    simp [Json.member?, hf, Json.asArray?]

theorem members_insert (fields : Bag) (subs : List Json) :
    members (.obj (Dict.insert fields "ops" (.arr subs))) = .ok subs :=
  members_ok_iff.mpr ⟨_, rfl, by simp⟩

theorem plain_or_batch (w : OpWire) (payload : Json) :
    w.Plain payload ∨ ∃ subs, w.opType = batchType ∧ members payload = .ok subs := by
  by_cases hb : w.opType = batchType
  · cases hm : members payload with
    | ok subs => exact .inr ⟨subs, hb, rfl⟩
    | error error => exact .inl fun _ subs => by simp [hm]
  · exact .inl fun h => absurd h hb

/-- Where there are no members to read, neither the table nor the limit matters. -/
theorem ofUpgraded_plain (hp : w.Plain payload) :
    ofUpgraded m limit w payload = ofUpgraded m' limit' w payload := by
  unfold ofUpgraded
  by_cases hb : w.opType = batchType
  · rw [if_pos hb, if_pos hb]
    cases hm : members payload with
    | ok subs => exact absurd hm (hp hb subs)
    | error error => rfl
  · rw [if_neg hb, if_neg hb]

theorem ofUpgraded_batch (hb : w.opType = batchType) (hm : members payload = .ok subs) :
    ofUpgraded m (limit + 1) w payload =
      (subs.mapM (ofMember m limit)).map (.batch w.envelope) := by
  rw [ofUpgraded, if_pos hb, hm]
  rfl

theorem ofUpgraded_zero (hb : w.opType = batchType) (hm : members payload = .ok subs) :
    ofUpgraded m 0 w payload = .error .nestedTooDeep := by
  rw [ofUpgraded, if_pos hb, hm]
  rfl

theorem ofWire_current : ofWire m limit (w.current payload) =
    if typeNames.contains w.opType then ofUpgraded m limit w payload
    else .error (.unknownOpType w.opType) := by
  rw [ofWire_eq]
  rfl

/-- Payloads may be upgraded before reading when what is read of them stays the same. -/
theorem ofWire_of_upgrade (hu : m.upgrade w.opType w.versionOrCurrent w.payload = .ok payload)
    (h : ofUpgraded m limit w payload = ofUpgraded .builtin limit w payload') :
    ofWire m limit w = ofWire .builtin limit (w.current payload') := by
  rw [ofWire_current, ofWire_eq, hu, bind_ok, h]

theorem ofMember_of_read (hw : OpWire.reader.fromJson sub = .ok w) :
    ofMember m limit sub = ofWire m limit w := by
  rw [ofMember, hw]
  rfl

mutual
theorem ofWire_upgraded : {w w' : OpWire} → Upgraded m w w' → (limit : Nat) →
    ofWire m limit w = ofWire .builtin limit w'
  | _, _, .plain hu hp, limit => ofWire_of_upgrade hu (ofUpgraded_plain hp)
  | _, _, .batch hb hu hf hs, limit => by
    have hm := members_ok_iff.mpr ⟨_, rfl, hf⟩
    refine ofWire_of_upgrade hu ?_
    cases limit with
    | zero => rw [ofUpgraded_zero hb hm, ofUpgraded_zero hb (members_insert _ _)]
    | succ below =>
      rw [ofUpgraded_batch hb hm, ofUpgraded_batch hb (members_insert _ _), mapM_upgraded hs below]

theorem mapM_upgraded : {subs subs' : List Json} → UpgradedAll m subs subs' → (limit : Nat) →
    subs.mapM (ofMember m limit) = subs'.mapM (ofMember .builtin limit)
  | _, _, .nil, _ => rfl
  | _, _, .cons hw h hs, limit => by
    rw [List.mapM_cons, List.mapM_cons, ofMember_of_read hw, ofMember_of_read h.reader_layout,
      ofWire_upgraded h limit, mapM_upgraded hs limit]
end

theorem ofPayload_ne {opType : String} :
    Edit.ofPayload opType payload ≠ .error .nestedTooDeep := by
  unfold Edit.ofPayload
  split
  · exact nofun
  · rename_i shape _
    cases shape.object Shape.ignored .deferred (.ofJson payload) <;> exact nofun

theorem members_ne : members payload ≠ .error .nestedTooDeep := by
  unfold members
  split <;> exact nofun

theorem ofUpgraded_plain_ne (hp : w.Plain payload) :
    ofUpgraded m limit w payload ≠ .error .nestedTooDeep := by
  unfold ofUpgraded
  by_cases hb : w.opType = batchType
  · rw [if_pos hb]
    cases hm : members payload with
    | ok subs => exact absurd hm (hp hb subs)
    | error error =>
      intro he
      cases he
      exact members_ne hm
  · rw [if_neg hb, ne_eq, map_error_iff]
    exact ofPayload_ne

private theorem ofWire_congr_of_ne (h : ofWire m limit w ≠ .error .nestedTooDeep)
    (hpayload : ∀ payload, ofUpgraded m limit w payload ≠ .error .nestedTooDeep →
      ofUpgraded m limit' w payload = ofUpgraded m limit w payload) :
    ofWire m limit' w = ofWire m limit w := by
  simp only [ofWire_eq] at h ⊢
  split at h
  · rename_i hk
    rw [if_pos hk, if_pos hk]
    cases hu : m.upgrade w.opType w.versionOrCurrent w.payload with
    | error error => rfl
    | ok payload =>
      rw [hu] at h
      exact hpayload payload h
  · rename_i hk
    rw [if_neg hk, if_neg hk]

/-- A result that is not for want of a higher limit is the same with every higher limit. -/
theorem ofWire_of_le (h : ofWire m limit w ≠ .error .nestedTooDeep) (hl : limit ≤ limit') :
    ofWire m limit' w = ofWire m limit w := by
  induction limit generalizing limit' w with
  | zero =>
    refine ofWire_congr_of_ne h fun payload hne => ?_
    rcases plain_or_batch w payload with hp | ⟨subs, hb, hm⟩
    · exact ofUpgraded_plain hp
    · exact absurd (ofUpgraded_zero hb hm) hne
  | succ below ih =>
    obtain ⟨below', rfl⟩ : ∃ below', limit' = below' + 1 := ⟨limit' - 1, by omega⟩
    have hmembers : ∀ sub, ofMember m below sub ≠ .error .nestedTooDeep →
        ofMember m below' sub = ofMember m below sub := by
      intro sub hsub
      unfold ofMember at hsub ⊢
      cases hw : OpWire.reader.fromJson sub with
      | error fault => rfl
      | ok wire =>
        rw [hw] at hsub
        exact ih hsub (Nat.le_of_succ_le_succ hl)
    refine ofWire_congr_of_ne h fun payload hne => ?_
    rcases plain_or_batch w payload with hp | ⟨subs, hb, hm⟩
    · exact ofUpgraded_plain hp
    · rw [ofUpgraded_batch hb hm] at hne
      rw [ofUpgraded_batch hb hm, ofUpgraded_batch hb hm,
        mapM_congr_of_ne hmembers fun he => hne (map_error_iff.mpr he)]

private theorem depthItems_lt_depth (fields : Bag) (subs : List Json) :
    Json.depthItems subs + 1 < (Json.obj (Dict.insert fields "ops" (.arr subs))).depth := by
  have hfind : (Dict.insert fields "ops" (.arr subs)).find? "ops" = some (.arr subs) := by simp
  have hlist := Json.depth_le_of_find? hfind
  rw [Json.depth] at hlist
  rw [Json.depth]
  omega

private theorem depth_payload_lt (w : OpWire) : w.payload.depth < w.layout.toJson.depth :=
  Layout.depth_lt_record "payload" (by cases hv : w.version <;> simp [Layout.toJson])

mutual
/-- The payload tells how deep batches are nested in what was upgraded. -/
theorem ofWire_upgraded_ne : {w w' : OpWire} → Upgraded m w w' → (limit : Nat) →
    w'.payload.depth < limit → ofWire .builtin limit w' ≠ .error .nestedTooDeep
  | _, _, .plain _ hp, limit, _ => by
    rw [ofWire_current]
    split
    · exact ofUpgraded_plain_ne hp
    · exact nofun
  | _, _, .batch _ _ _ _, 0, hl => absurd hl (Nat.not_lt_zero _)
  | _, _, .batch hb _ _ hs, below + 1, hl => by
    have hdepth := (depthItems_lt_depth _ _).trans hl
    rw [ofWire_current]
    split
    · rw [ofUpgraded_batch hb (members_insert _ _), ne_eq, map_error_iff]
      exact mapM_upgraded_ne hs below (by omega)
    · exact nofun

theorem mapM_upgraded_ne : {subs subs' : List Json} → UpgradedAll m subs subs' → (limit : Nat) →
    Json.depthItems subs' ≤ limit →
    subs'.mapM (ofMember .builtin limit) ≠ .error .nestedTooDeep
  | _, _, .nil, _, _ => nofun
  | _, _, .cons _ h hs, limit, hl => by
    obtain ⟨hfirst, hrest⟩ := Nat.max_le.mp hl
    have hpayload := (depth_payload_lt _).trans_le hfirst
    rw [List.mapM_cons, ofMember_of_read h.reader_layout]
    refine bind_ne_error (ofWire_upgraded_ne h limit hpayload) fun op => ?_
    exact bind_ne_error (mapM_upgraded_ne hs limit hrest) fun ops => nofun
end

private theorem exists_upgradedAll {ops : List Op}
    (hone : ∀ w op, ofWire m limit w = .ok op → ∃ w', Upgraded m w w')
    (h : subs.mapM (ofMember m limit) = .ok ops) : ∃ subs', UpgradedAll m subs subs' := by
  induction subs generalizing ops with
  | nil => exact ⟨[], .nil⟩
  | cons sub subs ih =>
    rw [List.mapM_cons] at h
    obtain ⟨op, hop, h⟩ := bind_ok_iff.mp h
    obtain ⟨rest, hrest, -⟩ := bind_ok_iff.mp h
    obtain ⟨w, hread, hw⟩ := bind_ok_iff.mp hop
    obtain ⟨w', hw'⟩ := hone w op hw
    obtain ⟨subs', hsubs'⟩ := ih hrest
    exact ⟨_, .cons (mapError_ok_iff.mp hread) hw' hsubs'⟩

theorem exists_upgraded {op : Op} (h : ofWire m limit w = .ok op) : ∃ w', Upgraded m w w' := by
  induction limit using Nat.strongRecOn generalizing w op with
  | ind limit ih =>
    obtain ⟨-, payload, hu, ⟨hb, -⟩ | ⟨hb, below, subs, ops, rfl, hm, ho, -⟩⟩ := ofWire_ok_iff.mp h
    · exact ⟨_, .plain hu fun hbatch => absurd hbatch hb⟩
    · obtain ⟨fields, rfl, hf⟩ := members_ok_iff.mp hm
      obtain ⟨subs', hsubs'⟩ := exists_upgradedAll (fun w op => ih below (Nat.lt_succ_self _)) ho
      exact ⟨_, .batch hb hu hf hsubs'⟩

mutual
theorem upgraded_unique : {w w' w'' : OpWire} → Upgraded m w w' → Upgraded m w w'' → w' = w''
  | _, _, _, .plain hu _, .plain hu' _ => by rw [Except.ok.inj (hu.symm.trans hu')]
  | _, _, _, .plain hu hp, .batch hb hu' hf _ => by
    obtain rfl := Except.ok.inj (hu.symm.trans hu')
    exact absurd (members_ok_iff.mpr ⟨_, rfl, hf⟩) (hp hb _)
  | _, _, _, .batch hb hu hf _, .plain hu' hp => by
    obtain rfl := Except.ok.inj (hu.symm.trans hu')
    exact absurd (members_ok_iff.mpr ⟨_, rfl, hf⟩) (hp hb _)
  | _, _, _, .batch _ hu hf hs, .batch _ hu' hf' hs' => by
    obtain rfl := Json.obj.inj (Except.ok.inj (hu.symm.trans hu'))
    obtain rfl := Json.arr.inj (Option.some.inj (hf.symm.trans hf'))
    rw [upgradedAll_unique hs hs']

theorem upgradedAll_unique : {subs subs' subs'' : List Json} → UpgradedAll m subs subs' →
    UpgradedAll m subs subs'' → subs' = subs''
  | _, _, _, .nil, .nil => rfl
  | _, _, _, .cons hw h hs, .cons hw' h' hs' => by
    obtain rfl := Except.ok.inj (hw.symm.trans hw')
    rw [upgraded_unique h h', upgradedAll_unique hs hs']
end

theorem typeName_ofWire {op : Op} (h : ofWire m limit w = .ok op) : op.typeName = w.opType := by
  obtain ⟨-, payload, -, ⟨-, e, he, rfl⟩ | ⟨hb, _, _, _, -, -, -, rfl⟩⟩ := ofWire_ok_iff.mp h
  · exact Edit.typeName_ofPayload he
  · exact hb.symm

theorem envelope_ofWire {op : Op} (h : ofWire m limit w = .ok op) :
    op.envelope = w.envelope := by
  obtain ⟨-, payload, -, ⟨-, e, -, rfl⟩ | ⟨-, _, _, _, -, -, -, rfl⟩⟩ := ofWire_ok_iff.mp h <;> rfl

theorem versions_ofWire {op : Op} (h : ofWire m limit w = .ok op) :
    op.All (·.version = currentOpVersion) fun _ => True :=
  ofWire_induction (fun _ _ _ _ => ⟨rfl, trivial⟩) (fun _ _ hops => ⟨rfl, allOf_iff.mpr hops⟩) h

/-- Where a stored operation can be brought up to date throughout, reading it with the upgrades gives
what reading the result without any gives, be it an operation or an error. The limit on nested
batches plays no part as soon as it exceeds the depth of the payload. And what can be read can be
brought up to date, in one way, and is an operation of the type and with the envelope that was
stored, current throughout. -/
theorem upgrades_come_first (m : Migrations) (w : OpWire) :
    (∀ w', w.Upgraded m w' →
      (∀ limit, ofWire m limit w = ofWire .builtin limit w') ∧
      ofCurrentWire w' ≠ .error .nestedTooDeep ∧
      ∀ limit, w'.payload.depth < limit → ofWire m limit w = ofCurrentWire w') ∧
    ∀ limit op, ofWire m limit w = .ok op → (∃! w', w.Upgraded m w') ∧
      op.typeName = w.opType ∧
      op.envelope = ⟨w.id, w.timestamp, w.origin, currentOpVersion⟩ ∧
      op.All (·.version = currentOpVersion) fun _ => True := by
  refine ⟨fun w' hw' => ?_, fun limit op hop => ?_⟩
  · have hsettled := ofWire_upgraded_ne hw' _ (Nat.lt_succ_self _)
    refine ⟨ofWire_upgraded hw', hsettled, fun limit hl => ?_⟩
    rw [ofWire_upgraded hw' limit]
    exact ofWire_of_le hsettled hl
  · obtain ⟨w', hw'⟩ := exists_upgraded hop
    exact ⟨⟨w', hw', fun w'' hw'' => upgraded_unique hw'' hw'⟩, typeName_ofWire hop,
      envelope_ofWire hop, versions_ofWire hop⟩

/-- A batch of the current version has an old write in it. It is brought up to date by putting the
current form of the write in its place, and then read without any upgrades. -/
theorem oldNullBatch_upgrades_come_first :
    let write := oldNullWrite.current (.obj (Dict.ofList
      [("entityId", .str documentTarget), ("path", .str "metadata.note"), ("value", .null)]))
    let upgraded := oldNullBatch.current
      (.obj (Dict.ofList [("ops", .arr [write.layout.toJson])]))
    ∃ op, ofWire writeUpgrade 1 oldNullBatch = .ok op ∧
      oldNullBatch.Upgraded writeUpgrade upgraded ∧ ofWire .builtin 1 upgraded = .ok op ∧
      upgraded.payload.depth < 5 ∧ ofWire writeUpgrade 5 oldNullBatch = ofCurrentWire upgraded ∧
      (∃! w', oldNullBatch.Upgraded writeUpgrade w') ∧ op.typeName = "BatchOp" ∧
      op.All (·.version = currentOpVersion) fun _ => True := by
  intro write upgraded
  have hread : OpWire.reader.fromJson oldNullWrite.layout.toJson = .ok oldNullWrite := by decide
  have hwrite : oldNullWrite.Upgraded writeUpgrade write :=
    .plain rfl fun hb => absurd hb (by decide)
  let fields : Bag := Dict.ofList [("ops", .arr [oldNullWrite.layout.toJson])]
  have hbatch : oldNullBatch.Upgraded writeUpgrade upgraded :=
    @OpWire.Upgraded.batch _ _ fields _ _ rfl rfl rfl (.cons hread hwrite .nil)
  obtain ⟨hall, hreading⟩ := upgrades_come_first writeUpgrade oldNullBatch
  obtain ⟨hsame, -, henough⟩ := hall upgraded hbatch
  obtain ⟨hunique, htype, -, hversions⟩ := hreading 1 _ ofWire_oldNullBatch
  have hdepth : upgraded.payload.depth < 5 := by decide
  exact ⟨_, ofWire_oldNullBatch, hbatch, (hsame 1).symm.trans ofWire_oldNullBatch, hdepth,
    henough 5 hdepth, hunique, htype, hversions⟩

end Op
end SceneGraph
