import TaskExchange.Proofs.Members

/-!
Reading: how a record is read from an object that says more than the record, and in another order.
What the record needs of an object is told member by member and put together as the record is
(`Record.Gives`, `Record.Needs`).  Main statements: a record is read whatever stands around its
members (`Record.ofMembers_of_gives`), no member is read twice (`Record.countP_le_of_scan`), and a
value of no more levels than may be opened is read as itself (`Json.Normal.stands`).
-/

namespace TaskExchange

/-! ### Values -/

namespace Json

mutual

/-- How deep arrays and objects stand inside one another. -/
def depth : Json → Nat
  | array items => depthItems items + 1
  | object members => depthMembers members + 1
  | _ => 0

/-- The depth of the deepest of some items. -/
def depthItems : List Json → Nat
  | [] => 0
  | v :: rest => max v.depth (depthItems rest)

/-- The depth of the deepest of some members. -/
def depthMembers : List (String × Json) → Nat
  | [] => 0
  | (_, v) :: rest => max v.depth (depthMembers rest)

end

/-- A value in which every object stands in normal form, as in every value that was read. -/
inductive Normal : Json → Prop
  | null : Normal null
  | bool (b : Bool) : Normal (bool b)
  | number (n : Number) : Normal (number n)
  | string (s : String) : Normal (string s)
  | array {items : List Json} : (∀ v ∈ items, Normal v) → Normal (array items)
  | object {members : Members} : members.Ordered → (∀ m ∈ members, Normal m.2) →
      Normal (object members)

variable {n : Nat} {v : Json}

theorem depthItems_le_iff : ∀ {items : List Json},
    depthItems items ≤ n ↔ ∀ v ∈ items, v.depth ≤ n
  | [] => by simp [depthItems]
  | v :: items => by rw [depthItems, Nat.max_le, depthItems_le_iff, List.forall_mem_cons]

theorem depthMembers_le_iff : ∀ {members : Members},
    depthMembers members ≤ n ↔ ∀ m ∈ members, m.2.depth ≤ n
  | [] => by simp [depthMembers]
  | (name, v) :: members => by
    rw [depthMembers, Nat.max_le, depthMembers_le_iff, List.forall_mem_cons]

/-- Whoever may open an object may open its members, with one level less. -/
theorem depth_object_le_iff {members : Members} :
    (object members).depth ≤ n ↔ ∃ k, n = k + 1 ∧ ∀ m ∈ members, m.2.depth ≤ k := by
  rw [depth]
  cases n with
  | zero => simp
  | succ k =>
    rw [Nat.succ_le_succ_iff, depthMembers_le_iff]
    simp

theorem depth_array_le_iff {items : List Json} :
    (array items).depth ≤ n ↔ ∃ k, n = k + 1 ∧ ∀ v ∈ items, v.depth ≤ k := by
  rw [depth]
  cases n with
  | zero => simp
  | succ k =>
    rw [Nat.succ_le_succ_iff, depthItems_le_iff]
    simp

/-- A value in normal form is read as itself where it is not too deep. -/
theorem Normal.stands (h : Normal v) : ∀ {n : Nat}, v.depth ≤ n → Document.Stands n v := by
  induction h with
  | null | bool | number | string =>
    intro n _
    rw [Document.Stands, Document.ofJson, Document.toJson]
  | array _ ih =>
    intro n hdepth
    obtain ⟨k, rfl, hitems⟩ := depth_array_le_iff.mp hdepth
    rw [Document.Stands, Document.ofJson, Document.toJson_array_iff]
    exact ⟨rfl, _, Document.toJsonItems_ofItems fun v hv => ih v hv (hitems v hv), rfl⟩
  | object hordered _ ih =>
    intro n hdepth
    obtain ⟨k, rfl, hmembers⟩ := depth_object_le_iff.mp hdepth
    rw [Document.Stands, Document.ofJson, Document.toJson_object_iff]
    refine ⟨rfl, _, Document.toJsonMembers_ofMembers fun m hm => ih m hm (hmembers m hm), ?_⟩
    rw [hordered.normalize_eq]

mutual

/-- Every value that was read is in normal form. -/
theorem normal_of_toJson : ∀ {n : Nat} {d : Document} {v : Json}, Document.toJson n d = .ok v →
    v.Normal
  | _, .null, _, h => by rw [Document.toJson] at h; cases h; exact .null
  | _, .bool b, _, h => by rw [Document.toJson] at h; cases h; exact .bool b
  | _, .number k, _, h => by rw [Document.toJson] at h; cases h; exact .number k
  | _, .string s, _, h => by rw [Document.toJson] at h; cases h; exact .string s
  | _, .outOfRange, _, h => by rw [Document.toJson] at h; cases h
  | _, .garbled, _, h => by rw [Document.toJson] at h; cases h
  | _, .broken, _, h => by rw [Document.toJson] at h; cases h
  | 0, .array _ _, _, h => by rw [Document.toJson] at h; cases h
  | 0, .object _ _, _, h => by rw [Document.toJson] at h; cases h
  | n + 1, .array ds whole, v, h => by
    obtain ⟨-, vs, hvs, rfl⟩ := Document.toJson_array_iff.mp h
    exact .array (normal_of_toJsonItems hvs)
  | n + 1, .object ms whole, v, h => by
    obtain ⟨-, members, hmembers, rfl⟩ := Document.toJson_object_iff.mp h
    exact .object (Members.ordered_normalize members) fun m hm =>
      normal_of_toJsonMembers hmembers m (Members.mem_of_mem_normalize hm)

theorem normal_of_toJsonItems : ∀ {n : Nat} {ds : List Document} {vs : List Json},
    Document.toJsonItems n ds = .ok vs → ∀ v ∈ vs, v.Normal
  | _, [], _, h => by rw [Document.toJsonItems] at h; cases h; simp
  | n, d :: ds, vs, h => by
    obtain ⟨v, rest, hv, hrest, rfl⟩ := Document.toJsonItems_cons_iff.mp h
    exact List.forall_mem_cons.mpr ⟨normal_of_toJson hv, normal_of_toJsonItems hrest⟩

theorem normal_of_toJsonMembers : ∀ {n : Nat} {ms : List (Name × Document)} {members : Members},
    Document.toJsonMembers n ms = .ok members → ∀ m ∈ members, m.2.Normal
  | _, [], _, h => by rw [Document.toJsonMembers] at h; cases h; simp
  | n, (.text name, d) :: ms, members, h => by
    obtain ⟨v, rest, hv, hrest, rfl⟩ := Document.toJsonMembers_cons_iff.mp h
    exact List.forall_mem_cons.mpr ⟨normal_of_toJson hv, normal_of_toJsonMembers hrest⟩
  | _, (.garbled, _) :: _, _, h => by rw [Document.toJsonMembers] at h; cases h

end

mutual

/-- A value is read where it is not too deep, if not always as itself. -/
theorem exists_toJson : ∀ {n : Nat} {v : Json}, v.depth ≤ n →
    ∃ w, Document.toJson n (.ofJson v) = .ok w
  | _, null, _ | _, bool _, _ | _, number _, _ | _, string _, _ => by
    rw [Document.ofJson, Document.toJson]
    exact ⟨_, rfl⟩
  | n, array items, h => by
    obtain ⟨k, rfl, hitems⟩ := depth_array_le_iff.mp h
    obtain ⟨ws, hws⟩ := exists_toJsonItems hitems
    rw [Document.ofJson]
    exact ⟨_, Document.toJson_array_iff.mpr ⟨rfl, ws, hws, rfl⟩⟩
  | n, object members, h => by
    obtain ⟨k, rfl, hmembers⟩ := depth_object_le_iff.mp h
    obtain ⟨ws, hws⟩ := exists_toJsonMembers hmembers
    rw [Document.ofJson]
    exact ⟨_, Document.toJson_object_iff.mpr ⟨rfl, ws, hws, rfl⟩⟩

theorem exists_toJsonItems : ∀ {n : Nat} {items : List Json}, (∀ v ∈ items, v.depth ≤ n) →
    ∃ ws, Document.toJsonItems n (Document.ofItems items) = .ok ws
  | _, [], _ => ⟨[], by rw [Document.ofItems, Document.toJsonItems]⟩
  | _, v :: items, h => by
    obtain ⟨hv, hitems⟩ := List.forall_mem_cons.mp h
    obtain ⟨w, hw⟩ := exists_toJson hv
    obtain ⟨ws, hws⟩ := exists_toJsonItems hitems
    rw [Document.ofItems]
    exact ⟨_, Document.toJsonItems_cons_iff.mpr ⟨w, ws, hw, hws, rfl⟩⟩

theorem exists_toJsonMembers : ∀ {n : Nat} {members : Members}, (∀ m ∈ members, m.2.depth ≤ n) →
    ∃ ws, Document.toJsonMembers n (Document.ofMembers members) = .ok ws
  | _, [], _ => ⟨[], by rw [Document.ofMembers, Document.toJsonMembers]⟩
  | _, (name, v) :: members, h => by
    obtain ⟨hv, hmembers⟩ := List.forall_mem_cons.mp h
    obtain ⟨w, hw⟩ := exists_toJson hv
    obtain ⟨ws, hws⟩ := exists_toJsonMembers hmembers
    rw [Document.ofMembers]
    exact ⟨_, Document.toJsonMembers_cons_iff.mpr ⟨w, ws, hw, hws, rfl⟩⟩

end

end Json

/-! ### Objects that say more -/

namespace Members

/-- Members restate others: they are those in any order, with members of other names among them, and
of those that may be left out some that are null are. -/
def Restates (optional : List String) (members given : Members) : Prop :=
  ∃ kept extra : Members, given.Perm (kept ++ extra) ∧ kept.Sublist members ∧
    (∀ m ∈ members, m ∉ kept → m.1 ∈ optional ∧ m.2 = .null) ∧
    ∀ m ∈ extra, m.1 ∉ members.map (·.1)

variable {members given : Members} {optional : List String} {name : String} {v : Json}

theorem Restates.refl (optional : List String) (members : Members) :
    Restates optional members members :=
  ⟨members, [], by simp, .refl _, fun _ hm hnot => absurd hm hnot, by simp⟩

/-- No name of the members stands twice. -/
theorem Restates.nodup (h : Restates optional members given)
    (hnodup : (members.map (·.1)).Nodup) {p : String → Bool}
    (hp : ∀ name, p name = true → name ∈ members.map (·.1)) :
    ((given.map (·.1)).filter p).Nodup := by
  obtain ⟨kept, extra, hperm, hkept, -, hextra⟩ := h
  refine ((hperm.map (·.1)).filter p).nodup_iff.mpr ?_
  have hnone : (extra.map (·.1)).filter p = [] := by
    refine List.filter_eq_nil_iff.mpr fun name hname hpname => ?_
    obtain ⟨m, hm, rfl⟩ := List.mem_map.mp hname
    exact hextra m hm (hp m.1 hpname)
  rw [List.map_append, List.filter_append, hnone, List.append_nil]
  exact (hnodup.sublist (hkept.map _)).filter _

/-- What a member says is said again, or it is null and was left out. -/
theorem Restates.get?_eq (h : Restates optional members given)
    (hnodup : (members.map (·.1)).Nodup) (hm : (name, v) ∈ members) :
    get? name given = some v ∨ name ∈ optional ∧ v = .null ∧ get? name given = none := by
  obtain ⟨kept, extra, hperm, hkept, hleft, hextra⟩ := h
  have hother : ∀ w, (name, w) ∈ given → (name, w) ∈ kept ∧ w = v := by
    intro w hw
    rcases List.mem_append.mp (hperm.mem_iff.mp hw) with hw | hw
    · exact ⟨hw, congrArg Prod.snd (List.inj_on_of_nodup_map hnodup (hkept.subset hw) hm rfl)⟩
    · exact absurd (List.mem_map.mpr ⟨(name, v), hm, rfl⟩) (hextra (name, w) hw)
  by_cases hin : (name, v) ∈ kept
  · refine Or.inl (get?_of_mem (hperm.mem_iff.mpr (List.mem_append_left _ hin)) ?_)
    exact fun w hw => (hother w hw).2
  · obtain ⟨hoptional, hnull⟩ := hleft _ hm hin
    refine Or.inr ⟨hoptional, hnull, get?_eq_none_iff.mpr ?_⟩
    rintro ⟨key, w⟩ hw rfl
    obtain ⟨hwkept, rfl⟩ := hother w hw
    exact hin hwkept

/-- What is said in fewer levels needs no more levels. -/
theorem Restates.depth_le (h : Restates optional members given) {n : Nat}
    (hdepth : (Json.object given).depth ≤ n) : (Json.object members).depth ≤ n := by
  obtain ⟨kept, extra, hperm, hkept, hleft, -⟩ := h
  obtain ⟨k, rfl, hgiven⟩ := Json.depth_object_le_iff.mp hdepth
  refine Json.depth_object_le_iff.mpr ⟨k, rfl, fun m hm => ?_⟩
  by_cases hin : m ∈ kept
  · exact hgiven m (hperm.mem_iff.mpr (List.mem_append_left _ hin))
  · rw [(hleft m hm hin).2]
    exact Nat.zero_le k

/-- Where a name stands once among those that count, its member is found. -/
theorem get?_of_filter_nodup {p : String → Bool} (hnodup : ((members.map (·.1)).filter p).Nodup)
    (hname : p name = true) (hm : (name, v) ∈ members) : get? name members = some v := by
  have hfilter := get?_filter p name members
  rw [if_pos hname] at hfilter
  rw [← hfilter]
  refine get?_of_nodup ?_ (List.mem_filter.mpr ⟨hm, hname⟩)
  rwa [List.filter_map] at hnodup

/-- Values that are changed are found as they are changed. -/
theorem get?_map (f : Json → Json) (name : String) : ∀ members : Members,
    get? name (members.map fun m => (m.1, f m.2)) = (get? name members).map f
  | [] => rfl
  | (key, v) :: members => by
    rw [List.map_cons, get?_cons, get?_cons, get?_map f name members]
    split <;> rfl

end Members

/-! ### Records -/

namespace Record

variable {α β : Type} {r : Record α} {f : Record (α → β)} {g : α → β} {a : α}
  {value : String → Option Document} {name : String} {decode : Document → Except Problem α}
  {fields : List (String × (Document → Except Problem Unit))} {other : Document → Except Problem β}

/-- A record is read from the values of its members: they pass, and they make it up. -/
structure Gives (r : Record α) (value : String → Option Document) (a : α) : Prop where
  passes : ∀ f ∈ r.fields, ∀ d, value f.1 = some d → f.2 d = .ok ()
  assembles : r.assemble value = .ok a

theorem gives_required {d : Document} (hd : value name = some d) (ha : decode d = .ok a) :
    (required name decode).Gives value a where
  passes := by
    intro f hf e he
    obtain rfl := List.mem_singleton.mp hf
    obtain rfl := Option.some.inj (hd.symm.trans he)
    simp [ha, Except.map]
  assembles := by simp [required, hd, ha]

theorem gives_optional {b : Option α} (hnone : value name = none → b = none)
    (hsome : ∀ d, value name = some d → orNull decode d = .ok b) :
    (optional name decode).Gives value b where
  passes := by
    intro f hf d hd
    obtain rfl := List.mem_singleton.mp hf
    simp [hsome d hd, Except.map]
  assembles := by
    cases hvalue : value name with
    | none => simp [optional, hvalue, hnone hvalue]
    | some d => simp [optional, hvalue, hsome d hvalue]

theorem Gives.map (h : r.Gives value a) (g : α → β) : (g <$> r).Gives value (g a) where
  passes := h.passes
  assembles := assemble_map_eq_ok_iff.mpr ⟨a, h.assembles, rfl⟩

theorem Gives.seq (hf : f.Gives value g) (hr : r.Gives value a) : (f <*> r).Gives value (g a) where
  passes := by
    intro x hx
    rcases List.mem_append.mp hx with hx | hx
    · exact hf.passes x hx
    · exact hr.passes x hx
  assembles := assemble_seq_eq_ok_iff.mpr ⟨g, a, hf.assembles, hr.assembles, rfl⟩

theorem names_iff : names fields name = true ↔ name ∈ fields.map (·.1) := by
  simp [names, List.find?_isSome]

/-- A record is read from an object in which none of its members stands twice, whatever stands around
them, as long as that is read. -/
theorem ofMembers_of_gives {members : Members} {u : Json → β}
    (h : r.Gives (lookup (Document.ofMembers members)) a)
    (hnodup : ((members.map (·.1)).filter (names r.fields)).Nodup)
    (hother : ∀ m ∈ members, names r.fields m.1 = false →
      other (Document.ofJson m.2) = .ok (u m.2)) :
    r.ofMembers other (Document.ofMembers members) true =
      .ok (a, (members.filter fun m => !names r.fields m.1).map fun m => (m.1, u m.2)) := by
  refine ofMembers_eq_ok_iff.mpr ⟨rfl, ?_, h.assembles⟩
  refine scan_ofMembers_eq hnodup (by simp) (fun m hm f hf => ?_) hother
  have hkey : f.1 = m.1 := by simpa using List.find?_some hf
  have hnamed : names r.fields m.1 = true := by rw [names, hf]; rfl
  refine h.passes f (List.mem_of_find?_eq_some hf) _ ?_
  rw [hkey, lookup_ofMembers, Members.get?_of_filter_nodup hnodup hnamed hm]
  rfl

/-- What stands around the members of a record need not be read. -/
theorem decode_of_gives {members : Members} (h : r.Gives (lookup (Document.ofMembers members)) a)
    (hnodup : ((members.map (·.1)).filter (names r.fields)).Nodup) :
    r.decode (.object (Document.ofMembers members) true) = .ok a := by
  have hread : r.ofMembers (fun _ => .ok ()) (Document.ofMembers members) true = .ok (a, _) :=
    ofMembers_of_gives (u := fun _ => ()) h hnodup fun _ _ _ => rfl
  rw [decode, hread]
  rfl

/-! ### Values that are read -/

variable {ms : List (Name × Document)} {rest : List (String × β)} {whole : Bool}

theorem decode_object_eq_ok (h : r.decode (.object ms whole) = .ok a) :
    (∃ rest, scan r.fields (fun _ => .ok ()) [] ms = .ok rest) ∧
      r.assemble (lookup ms) = .ok a := by
  obtain ⟨⟨b, rest⟩, hread, rfl⟩ := map_eq_ok_iff.mp h
  obtain ⟨-, hscan, hassemble⟩ := ofMembers_eq_ok_iff.mp hread
  exact ⟨⟨rest, hscan⟩, hassemble⟩

/-- What is read of a member that must be there was read from a value. -/
theorem exists_of_required (h : (required name decode).assemble value = .ok a) :
    ∃ d, decode d = .ok a := by
  cases hd : value name with
  | none => simp [required, hd] at h
  | some d => exact ⟨d, by simpa [required, hd] using h⟩

/-- Whatever a record is read from, it is put together from the values of members. -/
theorem exists_assemble_of_decode {d : Document} (h : r.decode d = .ok a) :
    ∃ value, r.assemble value = .ok a := by
  cases d with
  | object ms whole => exact ⟨_, (decode_object_eq_ok h).2⟩
  | array items whole =>
    rw [decode, ofItems, bind_eq_ok_iff] at h
    obtain ⟨-, -, h⟩ := h
    split at h
    · cases h
    · split at h
      · cases h
      · exact ⟨_, h⟩
  | _ => cases h

/-! ### Objects that are refused -/

/-- A record is never read unless these members are there. -/
def Needs (r : Record α) (needed : List String) : Prop :=
  ∀ value a, r.assemble value = .ok a → ∀ name ∈ needed, value name ≠ none

theorem needs_required : (required name decode).Needs [name] := by
  intro value a h key hkey hnone
  obtain rfl := List.mem_singleton.mp hkey
  simp [required, hnone] at h

theorem needs_optional : (optional name decode).Needs [] := by
  intro value a _ key hkey
  cases hkey

theorem Needs.map {needed : List String} (h : r.Needs needed) (g : α → β) :
    (g <$> r).Needs needed := by
  intro value b hb
  obtain ⟨a, ha, -⟩ := assemble_map_eq_ok_iff.mp hb
  exact h value a ha

theorem Needs.seq {first second : List String} (hf : f.Needs first) (hr : r.Needs second) :
    (f <*> r).Needs (first ++ second) := by
  intro value b hb name hname
  obtain ⟨g, a, hg, ha, -⟩ := assemble_seq_eq_ok_iff.mp hb
  rcases List.mem_append.mp hname with hname | hname
  · exact hf value g hg name hname
  · exact hr value a ha name hname

/-- A member that the record names is never read twice. -/
theorem countP_le_of_scan (hname : names fields name = true) :
    ∀ {seen : List String} {ms : List (Name × Document)} {rest : List (String × β)},
    scan fields other seen ms = .ok rest →
      ms.countP (·.1 = .text name) ≤ if name ∈ seen then 0 else 1
  | _, [], _, _ => by simp
  | _, (.garbled, _) :: _, _, h => by rw [scan] at h; cases h
  | seen, (.text key, d) :: ms, rest, h => by
    rw [List.countP_cons]
    cases hkey : fields.find? (·.1 = key) with
    | some f =>
      obtain ⟨hseen, -, hrest⟩ := (scan_cons_of_some hkey).mp h
      have hcount := countP_le_of_scan hname hrest
      by_cases heq : key = name
      · subst heq
        simpa [hseen] using hcount
      · simpa [heq, Ne.symm heq] using hcount
    | none =>
      obtain ⟨b, more, -, hmore, -⟩ := (scan_cons_of_none hkey).mp h
      have hne : key ≠ name := by
        rintro rfl
        rw [names, hkey] at hname
        cases hname
      simpa [hne] using countP_le_of_scan hname hmore

/-- A member that the record does not name is passed on as often as it stands there. -/
theorem countP_eq_of_scan (hname : names fields name = false) :
    ∀ {seen : List String} {ms : List (Name × Document)} {rest : List (String × β)},
    scan fields other seen ms = .ok rest →
      rest.countP (·.1 = name) = ms.countP (·.1 = .text name)
  | _, [], _, h => by rw [scan] at h; cases h; rfl
  | _, (.garbled, _) :: _, _, h => by rw [scan] at h; cases h
  | seen, (.text key, d) :: ms, rest, h => by
    cases hkey : fields.find? (·.1 = key) with
    | some f =>
      obtain ⟨-, -, hrest⟩ := (scan_cons_of_some hkey).mp h
      have hne : key ≠ name := by
        rintro rfl
        rw [names, hkey] at hname
        cases hname
      simpa [hne] using countP_eq_of_scan hname hrest
    | none =>
      obtain ⟨b, more, -, hmore, rfl⟩ := (scan_cons_of_none hkey).mp h
      simp [List.countP_cons, countP_eq_of_scan hname hmore]

theorem lookup_eq_none_iff : lookup ms name = none ↔ ms.countP (·.1 = .text name) = 0 := by
  simp [lookup, List.countP_eq_zero]

theorem countP_le_of_decode (h : r.decode (.object ms whole) = .ok a)
    (hname : name ∈ r.fields.map (·.1)) : ms.countP (·.1 = .text name) ≤ 1 := by
  obtain ⟨⟨rest, hscan⟩, -⟩ := decode_object_eq_ok h
  simpa using countP_le_of_scan (names_iff.mpr hname) hscan

theorem countP_ne_zero_of_decode {needed : List String} (h : r.decode (.object ms whole) = .ok a)
    (hneeds : r.Needs needed) (hname : name ∈ needed) : ms.countP (·.1 = .text name) ≠ 0 :=
  fun hzero => hneeds _ a (decode_object_eq_ok h).2 name hname (lookup_eq_none_iff.mpr hzero)

theorem countP_ofMembers (name : String) : ∀ members : Members,
    (Document.ofMembers members).countP (·.1 = .text name) = members.countP (·.1 = name)
  | [] => rfl
  | (key, v) :: members => by
    simp [Document.ofMembers, List.countP_cons, countP_ofMembers name members]

end Record

end TaskExchange
