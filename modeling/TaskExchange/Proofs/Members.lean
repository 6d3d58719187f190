import Mathlib.Data.List.Induction
import Mathlib.Data.List.Nodup
import Mathlib.Data.List.Perm.Basic
import TaskExchange.Json.Record

/-!
Members: objects as maps from names to values, and documents as values.  Main statements: members in
normal form are the same when they have the same values (`Members.ext_get?`), to put them in normal
form again changes nothing (`Members.Ordered.normalize_eq`), the document of a value that was read is
read as this value (`Document.stands_of_toJson`), and what a record leaves over is what its fields
do not name (`Record.get?_normalize_of_lookup`, `Record.get?_normalize_filter`).
-/

namespace TaskExchange

/-- A computation that goes on with what another one made goes well when both do. -/
theorem bind_eq_ok_iff {ε α β : Type} {x : Except ε α} {f : α → Except ε β} {b : β} :
    x >>= f = .ok b ↔ ∃ a, x = .ok a ∧ f a = .ok b := by
  cases x <;> simp [bind, Except.bind]

theorem map_eq_ok_iff {ε α β : Type} {x : Except ε α} {f : α → β} {b : β} :
    x.map f = .ok b ↔ ∃ a, x = .ok a ∧ f a = b := by
  cases x <;> simp [Except.map]

theorem mapError_eq_ok_iff {ε ε' α : Type} {x : Except ε α} {f : ε → ε'} {a : α} :
    x.mapError f = .ok a ↔ x = .ok a := by
  cases x <;> simp [Except.mapError]

namespace Members

variable {members more : Members} {name other key : String} {value v w : Json}

/-! ### Lookup -/

@[simp] theorem get?_nil (name : String) : get? name [] = none := rfl

theorem get?_cons (name key : String) (value : Json) (members : Members) :
    get? name ((key, value) :: members) =
      if key = name then some value else get? name members := rfl

theorem get?_append (name : String) (more : Members) : ∀ members : Members,
    get? name (members ++ more) = (get? name members).or (get? name more)
  | [] => rfl
  | (key, value) :: members => by
    rw [List.cons_append, get?_cons, get?_cons, get?_append name more members]
    split <;> rfl

theorem mem_of_get? : ∀ {members : Members}, get? name members = some v → (name, v) ∈ members
  | (key, value) :: members, h => by
    rw [get?_cons] at h
    split at h
    · next hkey =>
      cases h
      exact hkey ▸ List.mem_cons_self ..
    · exact List.mem_cons_of_mem _ (mem_of_get? h)

theorem get?_eq_none_iff : ∀ {members : Members},
    get? name members = none ↔ ∀ m ∈ members, m.1 ≠ name
  | [] => by simp
  | (key, value) :: members => by
    have hrest : get? name members = none ↔ ∀ m ∈ members, m.1 ≠ name := get?_eq_none_iff
    rw [get?_cons, List.forall_mem_cons]
    split
    · next hkey => simp [hkey]
    · next hkey => simp [hkey, hrest]

/-- A member that has no rival is the one that is found. -/
theorem get?_of_mem (h : (name, v) ∈ members) (halone : ∀ w, (name, w) ∈ members → w = v) :
    get? name members = some v := by
  cases hget : get? name members with
  | none => exact absurd rfl (get?_eq_none_iff.mp hget _ h)
  | some w => rw [halone w (mem_of_get? hget)]

theorem get?_of_nodup (hnodup : (members.map (·.1)).Nodup) (h : (name, v) ∈ members) :
    get? name members = some v := by
  refine get?_of_mem h fun w hw => ?_
  exact congrArg Prod.snd (List.inj_on_of_nodup_map hnodup hw h rfl)

theorem get?_filter (p : String → Bool) (name : String) : ∀ members : Members,
    get? name (members.filter fun m => p m.1) = if p name then get? name members else none
  | [] => by simp
  | (key, value) :: members => by
    have hrest := get?_filter p name members
    rw [List.filter_cons, get?_cons]
    split
    · next hkey =>
      rw [get?_cons, hrest]
      by_cases h : key = name
      · subst h
        simp [hkey]
      · simp [h]
    · next hkey =>
      rw [hrest]
      by_cases h : key = name
      · subst h
        simp [hkey]
      · simp [h]

theorem get?_erase (name other : String) (members : Members) :
    get? other (erase name members) = if other = name then none else get? other members := by
  have hfilter := get?_filter (fun key => key ≠ name) other members
  by_cases h : other = name
  · simpa [erase, h] using hfilter
  · simpa [erase, h] using hfilter

/-! ### Normal form -/

theorem get?_insert (name other : String) (value : Json) : ∀ members : Members,
    get? other (insert name value members) = if name = other then some value else get? other members
  | [] => rfl
  | (key, old) :: members => by
    rw [insert]
    split
    · rfl
    · next heq =>
      obtain rfl := Std.LawfulEqOrd.eq_of_compare heq
      rw [get?_cons, get?_cons]
      split <;> rfl
    · next hgt =>
      have hne : name ≠ key := by
        rintro rfl
        simp at hgt
      rw [get?_cons, get?_cons, get?_insert name other value members]
      by_cases h : key = other
      · subst h
        simp [hne]
      · simp [h]

theorem mem_insert {m : String × Json} : ∀ {members : Members},
    m ∈ insert name value members → m = (name, value) ∨ m ∈ members
  | [], h => Or.inl (List.mem_singleton.mp h)
  | (key, old) :: members, h => by
    rw [insert] at h
    split at h
    · exact List.mem_cons.mp h
    · exact (List.mem_cons.mp h).imp_right (List.mem_cons_of_mem _)
    · rcases List.mem_cons.mp h with rfl | h
      · exact Or.inr (List.mem_cons_self ..)
      · exact (mem_insert h).imp_right (List.mem_cons_of_mem _)

theorem Ordered.insert (name : String) (value : Json) : ∀ {members : Members}, Ordered members →
    Ordered (members.insert name value)
  | [], _ => List.pairwise_singleton ..
  | (key, old) :: members, h => by
    obtain ⟨hkey, hrest⟩ := List.pairwise_cons.mp h
    rw [Members.insert]
    split
    · next hlt =>
      refine List.pairwise_cons.mpr ⟨fun m hm => ?_, h⟩
      rcases List.mem_cons.mp hm with rfl | hm
      · exact hlt
      · exact Std.TransCmp.lt_trans hlt (hkey m hm)
    · next heq =>
      obtain rfl := Std.LawfulEqOrd.eq_of_compare heq
      exact List.pairwise_cons.mpr ⟨hkey, hrest⟩
    · next hgt =>
      refine List.pairwise_cons.mpr ⟨fun m hm => ?_, Ordered.insert name value hrest⟩
      rcases mem_insert hm with rfl | hm
      · exact Std.OrientedCmp.lt_of_gt hgt
      · exact hkey m hm

theorem Ordered.nodup (h : Ordered members) : (members.map (·.1)).Nodup := by
  refine List.pairwise_map.mpr (h.imp fun hlt heq => ?_)
  rw [heq] at hlt
  simp at hlt

theorem Ordered.erase (h : Ordered members) (name : String) : Ordered (members.erase name) :=
  h.sublist List.filter_sublist

/-- Whatever holds of no members and is kept by every insertion holds of a normal form. -/
theorem normalize_induction {P : Members → Prop} (members : Members) (first : P [])
    (next : ∀ done, ∀ m ∈ members, P done → P (insert m.1 m.2 done)) : P (normalize members) :=
  List.foldlRecOn members _ first fun done hdone m hm => next done m hm hdone

theorem ordered_normalize (members : Members) : Ordered (normalize members) :=
  normalize_induction members List.Pairwise.nil fun _ m _ h => h.insert m.1 m.2

theorem mem_of_mem_normalize {m : String × Json} (h : m ∈ normalize members) : m ∈ members := by
  refine normalize_induction (P := fun done => ∀ m ∈ done, m ∈ members) members ?_ ?_ m h
  · intro m hm
    cases hm
  · intro done m hm hdone x hx
    rcases mem_insert hx with rfl | hx
    · exact hm
    · exact hdone x hx

/-- Of several members of a name the last one counts. -/
theorem get?_normalize (name : String) (members : Members) :
    get? name (normalize members) = get? name members.reverse := by
  induction members using List.reverseRecOn with
  | nil => rfl
  | append_singleton members m ih =>
    rw [normalize, List.foldl_append, List.foldl_cons, List.foldl_nil, get?_insert, ← normalize, ih,
      List.reverse_append]
    rfl

/-- Where no member has a rival, all count. -/
theorem get?_normalize_of_nodup (h : (members.map (·.1)).Nodup) (name : String) :
    get? name (normalize members) = get? name members := by
  rw [get?_normalize]
  cases hget : get? name members with
  | none =>
    rw [get?_eq_none_iff] at hget ⊢
    exact fun m hm => hget m (List.mem_reverse.mp hm)
  | some v =>
    refine get?_of_mem (List.mem_reverse.mpr (mem_of_get? hget)) fun w hw => ?_
    have hfound := get?_of_nodup h (List.mem_reverse.mp hw)
    exact Option.some.inj (hfound.symm.trans hget)

/-- Members in normal form are the same when they have the same values. -/
theorem ext_get? (h : Ordered members) (h' : Ordered more)
    (hsame : ∀ name, get? name members = get? name more) : members = more := by
  have hmem : ∀ {a b : Members}, Ordered a → (∀ name, get? name a = get? name b) →
      ∀ m ∈ a, m ∈ b := fun ha hsame m hm =>
    mem_of_get? ((hsame m.1).symm.trans (get?_of_nodup ha.nodup hm))
  have hperm : members.Perm more := by
    refine (List.perm_ext_iff_of_nodup (h.nodup.of_map _) (h'.nodup.of_map _)).mpr fun m => ?_
    exact ⟨hmem h hsame m, hmem h' (fun name => (hsame name).symm) m⟩
  refine hperm.eq_of_pairwise (fun a b _ _ hab hba => ?_) h h'
  have hlt := Std.TransCmp.lt_trans hab hba
  simp at hlt

/-- What is in normal form is its own normal form. -/
theorem Ordered.normalize_eq (h : Ordered members) : normalize members = members :=
  ext_get? (ordered_normalize _) h fun name => get?_normalize_of_nodup h.nodup name

end Members

namespace Document

variable {n : Nat} {d : Document} {v : Json} {ds : List Document} {vs : List Json}
  {ms : List (Name × Document)} {members : Members} {name : String}

/-! ### The values of documents -/

theorem ended_eq_ok_iff {α : Type} {whole : Bool} {result a : α} :
    ended whole result = .ok a ↔ whole = true ∧ result = a := by
  cases whole <;> simp [ended]

/-- A value is read again where it was read: its document has no more levels than the one that it
was read from. -/
def Stands (n : Nat) (v : Json) : Prop := toJson n (ofJson v) = .ok v

theorem toJson_array_iff {whole : Bool} : toJson (n + 1) (array ds whole) = .ok v ↔
    whole = true ∧ ∃ vs, toJsonItems n ds = .ok vs ∧ v = .array vs := by
  rw [toJson, bind_eq_ok_iff]
  simp only [ended_eq_ok_iff, and_left_comm, exists_and_left, @eq_comm Json v]

theorem toJson_object_iff {whole : Bool} : toJson (n + 1) (object ms whole) = .ok v ↔
    whole = true ∧
      ∃ members, toJsonMembers n ms = .ok members ∧ v = .object (Members.normalize members) := by
  rw [toJson, bind_eq_ok_iff]
  simp only [ended_eq_ok_iff, and_left_comm, exists_and_left, @eq_comm Json v]

theorem toJsonItems_cons_iff : toJsonItems n (d :: ds) = .ok vs ↔
    ∃ v rest, toJson n d = .ok v ∧ toJsonItems n ds = .ok rest ∧ vs = v :: rest := by
  rw [toJsonItems]
  simp only [bind_eq_ok_iff, Except.ok.injEq, exists_and_left, @eq_comm _ vs]

theorem toJsonMembers_cons_iff : toJsonMembers n ((.text name, d) :: ms) = .ok members ↔
    ∃ v rest, toJson n d = .ok v ∧ toJsonMembers n ms = .ok rest ∧
      members = (name, v) :: rest := by
  rw [toJsonMembers]
  simp only [bind_eq_ok_iff, Except.ok.injEq, exists_and_left, @eq_comm _ members]

theorem mem_toJsonMembers : ∀ {ms : List (Name × Document)} {members : Members},
    toJsonMembers n ms = .ok members →
    ((name, v) ∈ members ↔ ∃ d, (Name.text name, d) ∈ ms ∧ toJson n d = .ok v)
  | [], _, h => by rw [toJsonMembers] at h; cases h; simp
  | (.text key, e) :: ms, members, h => by
    obtain ⟨w, rest, hw, hrest, rfl⟩ := toJsonMembers_cons_iff.mp h
    rw [List.mem_cons, mem_toJsonMembers hrest]
    constructor
    · rintro (heq | ⟨d, hd, hv⟩)
      · cases heq
        exact ⟨e, List.mem_cons_self .., hw⟩
      · exact ⟨d, List.mem_cons_of_mem _ hd, hv⟩
    · rintro ⟨d, hd, hv⟩
      rcases List.mem_cons.mp hd with heq | hd
      · cases heq
        rw [hw] at hv
        cases hv
        exact Or.inl rfl
      · exact Or.inr ⟨d, hd, hv⟩
  | (.garbled, _) :: _, _, h => by rw [toJsonMembers] at h; cases h

/-- Members are read again as themselves when their values are. -/
theorem toJsonMembers_ofMembers : ∀ {members : Members}, (∀ m ∈ members, Stands n m.2) →
    toJsonMembers n (ofMembers members) = .ok members
  | [], _ => by simp [ofMembers, toJsonMembers]
  | (name, v) :: members, h => by
    obtain ⟨hv, hrest⟩ := List.forall_mem_cons.mp h
    rw [ofMembers, toJsonMembers_cons_iff]
    exact ⟨v, members, hv, toJsonMembers_ofMembers hrest, rfl⟩

theorem toJsonItems_ofItems : ∀ {vs : List Json}, (∀ v ∈ vs, Stands n v) →
    toJsonItems n (ofItems vs) = .ok vs
  | [], _ => by simp [ofItems, toJsonItems]
  | v :: vs, h => by
    obtain ⟨hv, hrest⟩ := List.forall_mem_cons.mp h
    rw [ofItems, toJsonItems_cons_iff]
    exact ⟨v, vs, hv, toJsonItems_ofItems hrest, rfl⟩

mutual

/-- The document of a value that was read is read as this value. -/
theorem stands_of_toJson : ∀ {n : Nat} {d : Document} {v : Json}, toJson n d = .ok v → Stands n v
  | _, null, _, h => by rw [toJson] at h; cases h; rw [Stands, ofJson, toJson]
  | _, bool b, _, h => by rw [toJson] at h; cases h; rw [Stands, ofJson, toJson]
  | _, number k, _, h => by rw [toJson] at h; cases h; rw [Stands, ofJson, toJson]
  | _, string s, _, h => by rw [toJson] at h; cases h; rw [Stands, ofJson, toJson]
  | _, outOfRange, _, h => by rw [toJson] at h; cases h
  | _, garbled, _, h => by rw [toJson] at h; cases h
  | _, broken, _, h => by rw [toJson] at h; cases h
  | 0, array _ _, _, h => by rw [toJson] at h; cases h
  | 0, object _ _, _, h => by rw [toJson] at h; cases h
  | n + 1, array ds whole, v, h => by
    obtain ⟨-, vs, hvs, rfl⟩ := toJson_array_iff.mp h
    rw [Stands, ofJson, toJson_array_iff]
    exact ⟨rfl, vs, toJsonItems_ofItems (stands_of_toJsonItems hvs), rfl⟩
  | n + 1, object ms whole, v, h => by
    obtain ⟨-, members, hmembers, rfl⟩ := toJson_object_iff.mp h
    have hall := stands_of_toJsonMembers hmembers
    rw [Stands, ofJson, toJson_object_iff]
    refine ⟨rfl, _, toJsonMembers_ofMembers fun m hm => ?_, ?_⟩
    · exact hall m (Members.mem_of_mem_normalize hm)
    · rw [(Members.ordered_normalize members).normalize_eq]

theorem stands_of_toJsonItems : ∀ {n : Nat} {ds : List Document} {vs : List Json},
    toJsonItems n ds = .ok vs → ∀ v ∈ vs, Stands n v
  | _, [], _, h => by rw [toJsonItems] at h; cases h; simp
  | n, d :: ds, vs, h => by
    obtain ⟨v, rest, hv, hrest, rfl⟩ := toJsonItems_cons_iff.mp h
    exact List.forall_mem_cons.mpr ⟨stands_of_toJson hv, stands_of_toJsonItems hrest⟩

theorem stands_of_toJsonMembers : ∀ {n : Nat} {ms : List (Name × Document)} {members : Members},
    toJsonMembers n ms = .ok members → ∀ m ∈ members, Stands n m.2
  | _, [], _, h => by rw [toJsonMembers] at h; cases h; simp
  | n, (.text name, d) :: ms, members, h => by
    obtain ⟨v, rest, hv, hrest, rfl⟩ := toJsonMembers_cons_iff.mp h
    exact List.forall_mem_cons.mpr ⟨stands_of_toJson hv, stands_of_toJsonMembers hrest⟩
  | _, (.garbled, _) :: _, _, h => by rw [toJsonMembers] at h; cases h

end

end Document

namespace Record

variable {α β : Type} {fields : List (String × (Document → Except Problem Unit))}
  {test : Document → Except Problem Unit} {other : Document → Except Problem β}
  {seen : List String} {name key : String} {d : Document} {ms : List (Name × Document)}
  {rest : List (String × β)} {n : Nat} {members : Members}

/-- Holds of the names of a record's members. -/
def names (fields : List (String × (Document → Except Problem Unit))) (name : String) : Bool :=
  (fields.find? (·.1 = name)).isSome

theorem lookup_cons (name key : String) (d : Document) (ms : List (Name × Document)) :
    lookup ((.text key, d) :: ms) name = if key = name then some d else lookup ms name := by
  by_cases h : key = name <;> simp [lookup, h]

theorem lookup_ofMembers (name : String) : ∀ members : Members,
    lookup (Document.ofMembers members) name = (Members.get? name members).map Document.ofJson
  | [] => rfl
  | (key, v) :: members => by
    rw [Document.ofMembers, lookup_cons, Members.get?_cons, lookup_ofMembers name members]
    split <;> rfl

/-! ### Records of several members -/

theorem assemble_map_eq_ok_iff {f : α → β} {r : Record α} {value : String → Option Document}
    {b : β} : (f <$> r).assemble value = .ok b ↔ ∃ a, r.assemble value = .ok a ∧ f a = b :=
  map_eq_ok_iff

theorem assemble_seq_eq_ok_iff {f : Record (α → β)} {r : Record α}
    {value : String → Option Document} {b : β} : (f <*> r).assemble value = .ok b ↔
      ∃ g a, f.assemble value = .ok g ∧ r.assemble value = .ok a ∧ g a = b := by
  change (do
    let g ← f.assemble value
    let a ← r.assemble value
    return g a) = Except.ok b ↔ _
  simp only [bind_eq_ok_iff, pure, Except.pure, Except.ok.injEq, exists_and_left]

/-- What an object is read as: each of its members passes, and they make up the record. -/
theorem ofMembers_eq_ok_iff {r : Record α} {whole : Bool} {a : α} :
    r.ofMembers other ms whole = .ok (a, rest) ↔ whole = true ∧
      scan r.fields other [] ms = .ok rest ∧ r.assemble (lookup ms) = .ok a := by
  rw [ofMembers, bind_eq_ok_iff]
  cases whole with
  | false => simp [throw, throwThe, MonadExceptOf.throw]
  | true => simp [bind_eq_ok_iff, pure, Except.pure]

/-! ### Going through the members of an object -/

theorem scan_cons_of_some (h : fields.find? (·.1 = name) = some (key, test)) :
    scan fields other seen ((.text name, d) :: ms) = .ok rest ↔
      name ∉ seen ∧ test d = .ok () ∧ scan fields other (name :: seen) ms = .ok rest := by
  rw [scan, h]
  by_cases hseen : name ∈ seen
  · simp [hseen]
  · simp [hseen, bind_eq_ok_iff, Unique.exists_iff]

theorem scan_cons_of_none (h : fields.find? (·.1 = name) = none) :
    scan fields other seen ((.text name, d) :: ms) = .ok rest ↔
      ∃ b more, other d = .ok b ∧ scan fields other seen ms = .ok more ∧
        rest = (name, b) :: more := by
  rw [scan, h]
  simp only [bind_eq_ok_iff, pure, Except.pure, Except.ok.injEq, exists_and_left, @eq_comm _ rest]

/-- A member that the record names is there once, and passes its test. -/
theorem lookup_of_scan (hname : fields.find? (·.1 = name) = some (key, test)) :
    ∀ {seen : List String} {ms : List (Name × Document)} {rest : List (String × β)},
    scan fields other seen ms = .ok rest → (.text name, d) ∈ ms →
    name ∉ seen ∧ lookup ms name = some d ∧ test d = .ok ()
  | _, [], _, _, hd => by cases hd
  | _, (.garbled, _) :: _, _, h, _ => by rw [scan] at h; cases h
  | seen, (.text first, e) :: ms, rest, h, hd => by
    rw [lookup_cons]
    cases hfirst : fields.find? (·.1 = first) with
    | some f =>
      obtain ⟨hseen, htest, hrest⟩ := (scan_cons_of_some hfirst).mp h
      rcases List.mem_cons.mp hd with heq | hd
      · cases heq
        obtain ⟨rfl, rfl⟩ := Prod.mk.inj (Option.some.inj (hname.symm.trans hfirst))
        exact ⟨hseen, if_pos rfl, htest⟩
      · obtain ⟨hnot, hlookup, hpassed⟩ := lookup_of_scan hname hrest hd
        obtain ⟨hne, hnot⟩ := not_or.mp (mt List.mem_cons.mpr hnot)
        exact ⟨hnot, (if_neg (Ne.symm hne)).trans hlookup, hpassed⟩
    | none =>
      obtain ⟨b, more, -, hmore, -⟩ := (scan_cons_of_none hfirst).mp h
      have hne : first ≠ name := by
        rintro rfl
        rw [hname] at hfirst
        cases hfirst
      rcases List.mem_cons.mp hd with heq | hd
      · cases heq
        exact absurd rfl hne
      · obtain ⟨hnot, hlookup, hpassed⟩ := lookup_of_scan hname hmore hd
        exact ⟨hnot, (if_neg hne).trans hlookup, hpassed⟩

/-- An object that was gone through has a value, and what was read of it are the members of this
value that the record does not name, if what passes a test has a value. -/
theorem toJsonMembers_of_scan
    (hvalue : ∀ f ∈ fields, ∀ d, f.2 d = .ok () → ∃ v, Document.toJson n d = .ok v) :
    ∀ {seen : List String} {ms : List (Name × Document)} {rest : Members},
    scan fields (Document.toJson n) seen ms = .ok rest → ∃ members,
      Document.toJsonMembers n ms = .ok members ∧ rest = members.filter fun m => !names fields m.1
  | _, [], rest, h => by
    rw [scan] at h
    cases h
    exact ⟨[], by rw [Document.toJsonMembers], rfl⟩
  | _, (.garbled, _) :: _, _, h => by rw [scan] at h; cases h
  | seen, (.text name, d) :: ms, rest, h => by
    cases hname : fields.find? (·.1 = name) with
    | some f =>
      obtain ⟨-, htest, hrest⟩ := (scan_cons_of_some hname).mp h
      obtain ⟨v, hv⟩ := hvalue f (List.mem_of_find?_eq_some hname) d htest
      obtain ⟨members, hmembers, rfl⟩ := toJsonMembers_of_scan hvalue hrest
      refine ⟨(name, v) :: members, ?_, by simp [names, hname]⟩
      exact Document.toJsonMembers_cons_iff.mpr ⟨v, members, hv, hmembers, rfl⟩
    | none =>
      obtain ⟨v, more, hv, hmore, rfl⟩ := (scan_cons_of_none hname).mp h
      obtain ⟨members, hmembers, rfl⟩ := toJsonMembers_of_scan hvalue hmore
      refine ⟨(name, v) :: members, ?_, by simp [names, hname]⟩
      exact Document.toJsonMembers_cons_iff.mpr ⟨v, members, hv, hmembers, rfl⟩

theorem mem_of_lookup (h : lookup ms name = some d) : (.text name, d) ∈ ms := by
  obtain ⟨⟨key, e⟩, hfind, rfl⟩ := Option.map_eq_some_iff.mp h
  obtain rfl : key = .text name := by simpa using List.find?_some hfind
  exact List.mem_of_find?_eq_some hfind

theorem notMem_of_lookup (h : lookup ms name = none) (d : Document) : (.text name, d) ∉ ms := by
  intro hd
  have hnone := List.find?_eq_none.mp (Option.map_eq_none_iff.mp h) _ hd
  simp at hnone

/-- What stands under a name of the record is the value of the one member of this name. -/
theorem get?_normalize_of_lookup {v : Json} (hscan : scan fields other [] ms = .ok rest)
    (hmembers : Document.toJsonMembers n ms = .ok members)
    (hname : fields.find? (·.1 = name) = some (key, test)) (hd : lookup ms name = some d)
    (hv : Document.toJson n d = .ok v) :
    Members.get? name (Members.normalize members) = some v := by
  rw [Members.get?_normalize]
  refine Members.get?_of_mem (List.mem_reverse.mpr ?_) fun w hw => ?_
  · exact (Document.mem_toJsonMembers hmembers).mpr ⟨d, mem_of_lookup hd, hv⟩
  · obtain ⟨e, he, hw⟩ := (Document.mem_toJsonMembers hmembers).mp (List.mem_reverse.mp hw)
    obtain ⟨-, hlookup, -⟩ := lookup_of_scan hname hscan he
    obtain rfl := Option.some.inj (hd.symm.trans hlookup)
    exact Except.ok.inj (hw.symm.trans hv)

theorem get?_normalize_of_lookup_none (hmembers : Document.toJsonMembers n ms = .ok members)
    (hd : lookup ms name = none) : Members.get? name (Members.normalize members) = none := by
  rw [Members.get?_normalize, Members.get?_eq_none_iff]
  rintro ⟨key, v⟩ hm rfl
  obtain ⟨d, hmem, -⟩ := (Document.mem_toJsonMembers hmembers).mp (List.mem_reverse.mp hm)
  exact notMem_of_lookup hd d hmem

/-- What the record does not name is in the whole value what it is by itself. -/
theorem get?_normalize_filter (members : Members) (name : String) :
    Members.get? name (Members.normalize (members.filter fun m => !names fields m.1)) =
      if names fields name then none else Members.get? name (Members.normalize members) := by
  rw [Members.get?_normalize, Members.get?_normalize, ← List.filter_reverse,
    Members.get?_filter (fun name => !names fields name)]
  cases names fields name <;> rfl

/-- The document of an object is gone through when no name of the record stands twice, what is named
passes its test, and the rest is read. -/
theorem scan_ofMembers_eq {value : Json → β} : ∀ {seen : List String} {members : Members},
    ((members.map (·.1)).filter (names fields)).Nodup →
    (∀ m ∈ members, names fields m.1 = true → m.1 ∉ seen) →
    (∀ m ∈ members, ∀ f, fields.find? (·.1 = m.1) = some f → f.2 (Document.ofJson m.2) = .ok ()) →
    (∀ m ∈ members, names fields m.1 = false → other (Document.ofJson m.2) = .ok (value m.2)) →
    scan fields other seen (Document.ofMembers members) =
      .ok ((members.filter fun m => !names fields m.1).map fun m => (m.1, value m.2))
  | _, [], _, _, _, _ => by rw [Document.ofMembers, scan]; rfl
  | seen, (name, v) :: members, hnodup, hseen, htest, hother => by
    obtain ⟨hnot, hseen⟩ := List.forall_mem_cons.mp hseen
    obtain ⟨hpass, htest⟩ := List.forall_mem_cons.mp htest
    obtain ⟨hv, hother⟩ := List.forall_mem_cons.mp hother
    rw [Document.ofMembers]
    cases hname : fields.find? (·.1 = name) with
    | some f =>
      have hnamed : names fields name = true := by rw [names, hname]; rfl
      rw [List.map_cons, List.filter_cons_of_pos hnamed, List.nodup_cons] at hnodup
      obtain ⟨hfirst, hnodup⟩ := hnodup
      have hseen' : ∀ m ∈ members, names fields m.1 = true → m.1 ∉ name :: seen := by
        intro m hm hmnamed hin
        rcases List.mem_cons.mp hin with heq | hin
        · refine hfirst (heq ▸ List.mem_filter.mpr ⟨?_, hmnamed⟩)
          exact List.mem_map.mpr ⟨m, hm, rfl⟩
        · exact hseen m hm hmnamed hin
      refine (scan_cons_of_some hname).mpr ⟨hnot hnamed, hpass f hname, ?_⟩
      rw [scan_ofMembers_eq hnodup hseen' htest hother]
      simp [hnamed]
    | none =>
      have hnamed : names fields name = false := by rw [names, hname]; rfl
      rw [List.map_cons, List.filter_cons_of_neg (by simp [hnamed])] at hnodup
      refine (scan_cons_of_none hname).mpr
        ⟨value v, _, hv hnamed, scan_ofMembers_eq hnodup hseen htest hother, ?_⟩
      simp [hnamed]

/-- The document of an object in which no name stands twice is gone through to its values. -/
theorem scan_ofMembers {seen : List String} {members : Members}
    (hnodup : (members.map (·.1)).Nodup) (hseen : ∀ m ∈ members, m.1 ∉ seen)
    (htest : ∀ m ∈ members, ∀ f, fields.find? (·.1 = m.1) = some f →
      f.2 (Document.ofJson m.2) = .ok ())
    (hvalue : ∀ m ∈ members, fields.find? (·.1 = m.1) = none → Document.Stands n m.2) :
    scan fields (Document.toJson n) seen (Document.ofMembers members) =
      .ok (members.filter fun m => !names fields m.1) := by
  have hother : ∀ m ∈ members, names fields m.1 = false →
      Document.toJson n (Document.ofJson m.2) = .ok (id m.2) := fun m hm hnamed =>
    hvalue m hm (by simpa [names] using hnamed)
  rw [scan_ofMembers_eq (hnodup.filter _) (fun m hm _ => hseen m hm) htest hother]
  simp

end Record

end TaskExchange
