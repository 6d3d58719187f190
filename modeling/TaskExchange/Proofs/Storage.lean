import TaskExchange.Codec.Reports
import TaskExchange.Codec.Task
import TaskExchange.Proofs.Reading
import TaskExchange.Proofs.Stamp

/-!
Storage: the records of the exchange and their JSON forms.  A record is written as an object, and it
is read back from this object and from every other one that says the same: in any order, with members
of unknown names among its own, and without those that are null and may be left out.  An object in
which one of its own members stands twice, or one that it needs does not stand, is refused.  All
this is said of the values that fit the form, and those that are read are among them.  Main
statement: `records_faithful`.
-/

namespace TaskExchange

/-- The members of an object. -/
def Json.members : Json → Members
  | .object members => members
  | _ => []

/-- How the values of a type are written as objects and read from objects. -/
structure Form (α : Type) where
  toJson : α → Json
  /-- Reads a value, while so many levels of arrays and objects may be opened. -/
  decode : Nat → Document → Except Problem α
  /-- The members that must be there. -/
  required : List String
  /-- The members that may be left out where they are null. -/
  optional : List String

/-- The values that fit are read back as they were written. -/
structure Form.Faithful {α : Type} (F : Form α) (Fits : α → Prop) : Prop where
  written : ∀ x, F.toJson x = .object (F.toJson x).members
  /-- All members are written, each once. -/
  complete : ∀ x, ((F.toJson x).members.map (·.1)).Perm (F.required ++ F.optional)
  once : (F.required ++ F.optional).Nodup
  /-- A value is read from its object where this is not too deep. -/
  read : ∀ x, Fits x → ∀ levels, (F.toJson x).depth ≤ levels →
    F.decode levels (.ofJson (F.toJson x)) = .ok x
  /-- So it is from every object that says the same. -/
  restated : ∀ x, Fits x → ∀ given levels,
    Members.Restates F.optional (F.toJson x).members given → (Json.object given).depth ≤ levels →
    F.decode levels (.ofJson (.object given)) = .ok x
  /-- An object in which a member of this name stands twice is refused. -/
  repeated : ∀ name ∈ F.required ++ F.optional, ∀ levels members whole,
    1 < members.countP (·.1 = .text name) →
    ∃ problem, F.decode levels (.object members whole) = .error problem
  /-- So is one without a member that must be there. -/
  missing : ∀ name ∈ F.required, ∀ levels members whole,
    members.countP (·.1 = .text name) = 0 →
    ∃ problem, F.decode levels (.object members whole) = .error problem
  /-- Every value that is read fits. -/
  fits : ∀ levels d x, F.decode levels d = .ok x → Fits x

/-! ### Objects that are read -/

/-- These are the values of some members, but for those that are null and were left out. -/
def Members.Told (optional : List String) (members : Members)
    (value : String → Option Document) : Prop :=
  ∀ name v, (name, v) ∈ members →
    value name = some (.ofJson v) ∨ name ∈ optional ∧ v = .null ∧ value name = none

theorem Members.Restates.told {optional : List String} {members given : Members}
    (h : Restates optional members given) (hnodup : (members.map (·.1)).Nodup) :
    Told optional members (Record.lookup (Document.ofMembers given)) := by
  intro name v hm
  rw [Record.lookup_ofMembers]
  rcases h.get?_eq hnodup hm with hget | ⟨hoptional, hnull, hget⟩
  · exact Or.inl (by rw [hget]; rfl)
  · exact Or.inr ⟨hoptional, hnull, by rw [hget]; rfl⟩

/-- A member that may not be left out is there. -/
theorem Members.Told.value_eq {optional : List String} {members : Members}
    {value : String → Option Document} (h : Told optional members value) (k : Nat) {name : String}
    {v : Json} (hm : members[k]? = some (name, v)) (hname : name ∉ optional) :
    value name = some (.ofJson v) :=
  (h name v (List.mem_of_getElem? hm)).resolve_right fun hleft => hname hleft.1

/-- What is not read is refused. -/
theorem exists_error {α : Type} {x : Except Problem α} (h : ∀ a, x ≠ .ok a) :
    ∃ problem, x = .error problem := by
  cases x with
  | error problem => exact ⟨problem, rfl⟩
  | ok a => exact absurd rfl (h a)

namespace Form

variable {α : Type} {F : Form α} {Fits : α → Prop}

/-- Every object says what it says. -/
theorem read_of_restated (hwritten : ∀ x, F.toJson x = .object (F.toJson x).members)
    (hrestated : ∀ x, Fits x → ∀ given levels,
      Members.Restates F.optional (F.toJson x).members given → (Json.object given).depth ≤ levels →
      F.decode levels (.ofJson (.object given)) = .ok x) :
    ∀ x, Fits x → ∀ levels, (F.toJson x).depth ≤ levels →
      F.decode levels (.ofJson (F.toJson x)) = .ok x := by
  intro x hx levels hdepth
  rw [hwritten x] at hdepth ⊢
  exact hrestated x hx _ levels (.refl F.optional _) hdepth

/-- A form whose values are read as records is faithful when the values of its members make up the
value that was written. -/
theorem faithful_of_record {r : Nat → Record α}
    (hdecode : ∀ levels d, F.decode levels d = (r levels).decode d)
    (hfields : ∀ levels, ((r levels).fields.map (·.1)).Perm (F.required ++ F.optional))
    (hneeds : ∀ levels, (r levels).Needs F.required)
    (hwritten : ∀ x, F.toJson x = .object (F.toJson x).members)
    (hcomplete : ∀ x, ((F.toJson x).members.map (·.1)).Perm (F.required ++ F.optional))
    (honce : (F.required ++ F.optional).Nodup)
    (hgives : ∀ x, Fits x → ∀ levels value, (F.toJson x).depth ≤ levels →
      (F.toJson x).members.Told F.optional value → (r levels).Gives value x)
    (hfits : ∀ levels value x, (r levels).assemble value = .ok x → Fits x) :
    F.Faithful Fits := by
  have hrestated : ∀ x, Fits x → ∀ given levels,
      Members.Restates F.optional (F.toJson x).members given → (Json.object given).depth ≤ levels →
      F.decode levels (.ofJson (.object given)) = .ok x := by
    intro x hx given levels hgiven hdepth
    have hnodup : ((F.toJson x).members.map (·.1)).Nodup := (hcomplete x).nodup_iff.mpr honce
    have hread := hgives x hx levels _ (hwritten x ▸ hgiven.depth_le hdepth) (hgiven.told hnodup)
    have hnamed : ((given.map (·.1)).filter (Record.names (r levels).fields)).Nodup := by
      refine hgiven.nodup hnodup fun name hname => ?_
      exact (hcomplete x).mem_iff.mpr ((hfields levels).mem_iff.mp (Record.names_iff.mp hname))
    rw [hdecode, Document.ofJson]
    exact Record.decode_of_gives hread hnamed
  refine ⟨hwritten, hcomplete, honce, read_of_restated hwritten hrestated, hrestated, ?_, ?_, ?_⟩
  · intro name hname levels ms whole hcount
    refine exists_error fun a ha => ?_
    rw [hdecode] at ha
    have := Record.countP_le_of_decode ha ((hfields levels).mem_iff.mpr hname)
    omega
  · intro name hname levels ms whole hcount
    refine exists_error fun a ha => ?_
    rw [hdecode] at ha
    exact Record.countP_ne_zero_of_decode ha (hneeds levels) hname hcount
  · intro levels d x hx
    rw [hdecode] at hx
    obtain ⟨value, hvalue⟩ := Record.exists_assemble_of_decode hx
    exact hfits levels value x hvalue

end Form

/-! ### Values -/

theorem Document.readNat_ofNat {n bound : Nat} (h : n < bound) :
    (Document.ofJson (.ofNat n)).readNat bound = .ok n := by
  rw [Json.ofNat, ofJson, readNat, if_pos ⟨Int.natCast_nonneg n, Int.ofNat_lt.mpr h⟩]
  rfl

/-- A number that is read is below its bound. -/
theorem Document.lt_of_readNat {d : Document} {n bound : Nat} (h : d.readNat bound = .ok n) :
    n < bound := by
  rw [readNat.eq_def] at h
  split at h
  · split at h
    · next hrange =>
      cases h
      omega
    · cases h
  · cases h

theorem Document.readString_ofJson (s : String) : (Document.ofJson (.string s)).readString = .ok s := by
  rw [ofJson, readString]

/-- A payload is read where it is not too deep. -/
theorem Document.readMembers_ofJson {levels : Nat} {members : Members}
    (hnormal : (Json.object members).Normal) (hdepth : (Json.object members).depth ≤ levels) :
    readMembers levels (.ofJson (.object members)) = .ok members := by
  obtain ⟨k, rfl, -⟩ := Json.depth_object_le_iff.mp hdepth
  have hstands := hnormal.stands hdepth
  rw [Stands, ofJson, toJson_object_iff] at hstands
  obtain ⟨-, values, hvalues, heq⟩ := hstands
  rw [ofJson, readMembers, hvalues]
  cases heq
  rfl

/-- Every payload that was read is in normal form. -/
theorem Document.normal_of_readMembers {levels : Nat} {d : Document} {members : Members}
    (h : d.readMembers levels = .ok members) : (Json.object members).Normal := by
  cases d with
  | object ms whole =>
    cases levels with
    | zero => rw [readMembers] at h; cases h
    | succ k =>
      obtain ⟨values, hvalues, hended⟩ := bind_eq_ok_iff.mp h
      obtain ⟨rfl, rfl⟩ := ended_eq_ok_iff.mp hended
      exact Json.normal_of_toJson (toJson_object_iff.mpr ⟨rfl, values, hvalues, rfl⟩)
  | _ => cases levels <;> (rw [readMembers] at h <;> cases h)

theorem TaskId.decode_toJson {id : TaskId} (h : id.value < 2 ^ 64) :
    decode (.ofJson id.toJson) = .ok id := by
  have hread : (Document.ofJson id.toJson).readNat bound = .ok id.value :=
    Document.readNat_ofNat h
  rw [decode, hread]
  rfl

theorem TaskId.lt_of_decode {d : Document} {id : TaskId} (h : decode d = .ok id) :
    id.value < 2 ^ 64 := by
  obtain ⟨n, hn, rfl⟩ := map_eq_ok_iff.mp h
  exact Document.lt_of_readNat hn

theorem JobId.decode_toJson (id : JobId) : decode (.ofJson id.toJson) = .ok id := by
  rw [toJson, decode, Document.readString_ofJson]
  rfl

theorem WorkerId.decode_toJson (id : WorkerId) : decode (.ofJson id.toJson) = .ok id := by
  rw [toJson, decode, Document.readString_ofJson]
  rfl

theorem Kind.decode_toJson (k : Kind) : decode (.ofJson k.toJson) = .ok k := by
  rw [toJson, Document.ofJson]
  cases k <;> rfl

theorem TaskState.decode_toJson (s : TaskState) : decode (.ofJson s.toJson) = .ok s := by
  rw [toJson, Document.ofJson]
  cases s <;> rfl

theorem Timestamp.decode_toJson {t : Timestamp} (h : t.Nameable) :
    decode (.ofJson t.toJson) = .ok t := by
  rw [toJson, decode, Document.readString_ofJson]
  simp [bind, Except.bind, ofString?_text h, pure, Except.pure]

theorem Timestamp.nameable_of_decode {d : Document} {t : Timestamp} (h : decode d = .ok t) :
    t.Nameable := by
  obtain ⟨text, -, h⟩ := bind_eq_ok_iff.mp h
  split at h
  · next htext =>
    cases h
    exact nameable_of_ofString? htext
  · cases h

theorem readCount_ofNat {n : Nat} (h : n < 2 ^ 64) : readCount (.ofJson (.ofNat n)) = .ok n :=
  Document.readNat_ofNat h

theorem lt_of_required_readCount {name : String} {value : String → Option Document} {n : Nat}
    (h : (Record.required name readCount).assemble value = .ok n) : n < 2 ^ 64 := by
  obtain ⟨d, hd⟩ := Record.exists_of_required h
  exact Document.lt_of_readNat hd

/-! ### Categories -/

namespace Category

/-- How categories are written and read. -/
def form : Form Category where
  toJson := toJson
  decode _ := decode
  required := ["graphId", "workerVersion"]
  optional := []

theorem gives_record {c : Category} {value : String → Option Document}
    (h : c.members.Told [] value) : record.Gives value c :=
  ((Record.gives_required (h.value_eq 0 rfl (by simp)) (Document.readString_ofJson _)).map mk).seq
    (Record.gives_required (h.value_eq 1 rfl (by simp)) (Document.readString_ofJson _))

theorem needs_record : record.Needs form.required :=
  (Record.needs_required.map mk).seq Record.needs_required

theorem faithful_form : form.Faithful fun _ => True :=
  Form.faithful_of_record (r := fun _ => record) (fun _ _ => rfl) (fun _ => .refl _)
    (fun _ => needs_record) (fun _ => rfl) (fun _ => .refl _) (by decide)
    (fun _ _ _ _ _ htold => gives_record htold) fun _ _ _ _ => trivial

/-- A category is read back from its object. -/
theorem decode_toJson (c : Category) : decode (.ofJson c.toJson) = .ok c :=
  faithful_form.read c trivial _ le_rfl

end Category

/-! ### The progress of jobs -/

namespace JobStatus

/-- How the progress of a job is written and read. -/
def form : Form JobStatus where
  toJson := toJson
  decode _ := decode
  required := ["jobId", "graphId", "workerVersion", "total", "queued", "inFlight", "completed",
    "deliveries"]
  optional := []

/-- The counts fit 64-bit words. -/
structure Fits (s : JobStatus) : Prop where
  total : s.total < 2 ^ 64
  queued : s.queued < 2 ^ 64
  inFlight : s.inFlight < 2 ^ 64
  completed : s.completed < 2 ^ 64
  deliveries : s.deliveries < 2 ^ 64

theorem needs_record : record.Needs form.required :=
  (((((((Record.needs_required.map mk).seq Record.needs_required).seq Record.needs_required).seq
    Record.needs_required).seq Record.needs_required).seq Record.needs_required).seq
    Record.needs_required).seq Record.needs_required

theorem gives_record {s : JobStatus} (hs : s.Fits) {value : String → Option Document}
    (h : s.toJson.members.Told [] value) : record.Gives value s := by
  have hjob := Record.gives_required (h.value_eq 0 rfl (by simp)) s.job.decode_toJson
  have hgraph := Record.gives_required (h.value_eq 1 rfl (by simp))
    (Document.readString_ofJson s.graph)
  have hversion := Record.gives_required (h.value_eq 2 rfl (by simp))
    (Document.readString_ofJson s.version)
  have htotal := Record.gives_required (h.value_eq 3 rfl (by simp)) (readCount_ofNat hs.total)
  have hqueued := Record.gives_required (h.value_eq 4 rfl (by simp)) (readCount_ofNat hs.queued)
  have hinFlight := Record.gives_required (h.value_eq 5 rfl (by simp))
    (readCount_ofNat hs.inFlight)
  have hcompleted := Record.gives_required (h.value_eq 6 rfl (by simp))
    (readCount_ofNat hs.completed)
  have hdeliveries := Record.gives_required (h.value_eq 7 rfl (by simp))
    (readCount_ofNat hs.deliveries)
  exact ((((((((hjob.map mk).seq hgraph).seq hversion).seq htotal).seq hqueued).seq hinFlight).seq
    hcompleted).seq hdeliveries)

theorem fits_of_assemble {s : JobStatus} {value : String → Option Document}
    (h : record.assemble value = .ok s) : s.Fits := by
  simp only [record, Record.assemble_seq_eq_ok_iff, Record.assemble_map_eq_ok_iff] at h
  obtain ⟨_, _, ⟨_, _, ⟨_, _, ⟨_, _, ⟨_, _, ⟨_, _, ⟨_, _, ⟨_, -, rfl⟩, -, rfl⟩, -, rfl⟩,
    htotal, rfl⟩, hqueued, rfl⟩, hinFlight, rfl⟩, hcompleted, rfl⟩, hdeliveries, rfl⟩ := h
  exact ⟨lt_of_required_readCount htotal, lt_of_required_readCount hqueued,
    lt_of_required_readCount hinFlight, lt_of_required_readCount hcompleted,
    lt_of_required_readCount hdeliveries⟩

theorem faithful_form : form.Faithful Fits :=
  Form.faithful_of_record (r := fun _ => record) (fun _ _ => rfl) (fun _ => .refl _)
    (fun _ => needs_record) (fun _ => rfl) (fun _ => .refl _) (by decide)
    (fun _ hs _ _ _ htold => gives_record hs htold) fun _ _ _ => fits_of_assemble

end JobStatus

namespace JobSummary

/-- How the progress of all jobs is written and read. -/
def form : Form JobSummary where
  toJson := toJson
  decode _ := decode
  required := ["jobs", "total", "queued", "inFlight", "completed", "deliveries"]
  optional := []

/-- The counts fit 64-bit words. -/
structure Fits (s : JobSummary) : Prop where
  jobs : s.jobs < 2 ^ 64
  total : s.total < 2 ^ 64
  queued : s.queued < 2 ^ 64
  inFlight : s.inFlight < 2 ^ 64
  completed : s.completed < 2 ^ 64
  deliveries : s.deliveries < 2 ^ 64

theorem needs_record : record.Needs form.required :=
  (((((Record.needs_required.map mk).seq Record.needs_required).seq Record.needs_required).seq
    Record.needs_required).seq Record.needs_required).seq Record.needs_required

theorem gives_record {s : JobSummary} (hs : s.Fits) {value : String → Option Document}
    (h : s.toJson.members.Told [] value) : record.Gives value s := by
  have hjobs := Record.gives_required (h.value_eq 0 rfl (by simp)) (readCount_ofNat hs.jobs)
  have htotal := Record.gives_required (h.value_eq 1 rfl (by simp)) (readCount_ofNat hs.total)
  have hqueued := Record.gives_required (h.value_eq 2 rfl (by simp)) (readCount_ofNat hs.queued)
  have hinFlight := Record.gives_required (h.value_eq 3 rfl (by simp))
    (readCount_ofNat hs.inFlight)
  have hcompleted := Record.gives_required (h.value_eq 4 rfl (by simp))
    (readCount_ofNat hs.completed)
  have hdeliveries := Record.gives_required (h.value_eq 5 rfl (by simp))
    (readCount_ofNat hs.deliveries)
  exact (((((hjobs.map mk).seq htotal).seq hqueued).seq hinFlight).seq hcompleted).seq hdeliveries

theorem fits_of_assemble {s : JobSummary} {value : String → Option Document}
    (h : record.assemble value = .ok s) : s.Fits := by
  simp only [record, Record.assemble_seq_eq_ok_iff, Record.assemble_map_eq_ok_iff] at h
  obtain ⟨_, _, ⟨_, _, ⟨_, _, ⟨_, _, ⟨_, _, ⟨_, hjobs, rfl⟩, htotal, rfl⟩, hqueued, rfl⟩,
    hinFlight, rfl⟩, hcompleted, rfl⟩, hdeliveries, rfl⟩ := h
  exact ⟨lt_of_required_readCount hjobs, lt_of_required_readCount htotal,
    lt_of_required_readCount hqueued, lt_of_required_readCount hinFlight,
    lt_of_required_readCount hcompleted, lt_of_required_readCount hdeliveries⟩

theorem faithful_form : form.Faithful Fits :=
  Form.faithful_of_record (r := fun _ => record) (fun _ _ => rfl) (fun _ => .refl _)
    (fun _ => needs_record) (fun _ => rfl) (fun _ => .refl _) (by decide)
    (fun _ hs _ _ _ htold => gives_record hs htold) fun _ _ _ => fits_of_assemble

end JobSummary

/-! ### Tasks -/

namespace Task

/-- How tasks are written and read. -/
def form : Form Task where
  toJson := toJson
  decode := decodeWithin
  required := ["taskId", "category", "kind", "payload", "state", "deliveries", "createdAt"]
  optional := ["jobId"]

/-- The numbers fit their words, the time can be named, and the payload is in normal form, as every
payload that was read. -/
structure Fits (t : Task) : Prop where
  id : t.id.value < 2 ^ 64
  payload : (Json.object t.payload).Normal
  deliveries : t.deliveries < 2 ^ 32
  createdAt : t.createdAt.Nameable

theorem needs_record (levels : Nat) : (record levels).Needs form.required :=
  (((((((Record.needs_required.map mk).seq Record.needs_optional).seq Record.needs_required).seq
    Record.needs_required).seq Record.needs_required).seq Record.needs_required).seq
    Record.needs_required).seq Record.needs_required

theorem gives_job {t : Task} {value : String → Option Document}
    (h : t.toJson.members.Told ["jobId"] value) :
    (Record.optional "jobId" JobId.decode).Gives value t.job := by
  have hm : ("jobId", Json.ofOption JobId.toJson t.job) ∈ t.toJson.members :=
    List.mem_of_getElem? (i := 1) rfl
  have hsaid := h _ _ hm
  cases hjob : t.job with
  | none =>
    refine Record.gives_optional (fun _ => rfl) fun d hd => ?_
    rw [hjob] at hsaid
    rcases hsaid with hsome | ⟨-, -, hnone⟩
    · obtain rfl := Option.some.inj (hd.symm.trans hsome)
      rw [Json.ofOption, Document.ofJson]
      rfl
    · rw [hnone] at hd
      cases hd
  | some job =>
    rw [hjob] at hsaid
    have hsome := hsaid.resolve_right fun hleft => by cases hleft.2.1
    refine Record.gives_optional (fun hnone => ?_) fun d hd => ?_
    · rw [hnone] at hsome
      cases hsome
    · obtain rfl := Option.some.inj (hd.symm.trans hsome)
      rw [Json.ofOption, JobId.toJson, Document.ofJson]
      rfl

theorem gives_record {t : Task} (ht : t.Fits) {levels : Nat} {value : String → Option Document}
    (hdepth : t.toJson.depth ≤ levels) (h : t.toJson.members.Told ["jobId"] value) :
    (record levels).Gives value t := by
  obtain ⟨k, rfl, hmembers⟩ := Json.depth_object_le_iff.mp hdepth
  have hpayloadDepth : (Json.object t.payload).depth ≤ k :=
    hmembers ("payload", .object t.payload) (List.mem_of_getElem? (i := 4) rfl)
  have hid := Record.gives_required (h.value_eq 0 rfl (by simp)) (TaskId.decode_toJson ht.id)
  have hcategory := Record.gives_required (h.value_eq 2 rfl (by simp)) t.category.decode_toJson
  have hkind := Record.gives_required (h.value_eq 3 rfl (by simp)) t.kind.decode_toJson
  have hpayload := Record.gives_required (h.value_eq 4 rfl (by simp))
    (Document.readMembers_ofJson ht.payload hpayloadDepth)
  have hstate := Record.gives_required (h.value_eq 5 rfl (by simp)) t.state.decode_toJson
  have hdeliveries := Record.gives_required (h.value_eq 6 rfl (by simp))
    (Document.readNat_ofNat ht.deliveries)
  have hcreatedAt := Record.gives_required (h.value_eq 7 rfl (by simp))
    (Timestamp.decode_toJson ht.createdAt)
  exact (((((((hid.map mk).seq (gives_job h)).seq hcategory).seq hkind).seq hpayload).seq
    hstate).seq hdeliveries).seq hcreatedAt

theorem fits_of_assemble {t : Task} {levels : Nat} {value : String → Option Document}
    (h : (record levels).assemble value = .ok t) : t.Fits := by
  simp only [record, Record.assemble_seq_eq_ok_iff, Record.assemble_map_eq_ok_iff] at h
  obtain ⟨_, _, ⟨_, _, ⟨_, _, ⟨_, _, ⟨_, _, ⟨_, _, ⟨_, _, ⟨_, hid, rfl⟩, -, rfl⟩, -, rfl⟩, -,
    rfl⟩, hpayload, rfl⟩, -, rfl⟩, hdeliveries, rfl⟩, hcreatedAt, rfl⟩ := h
  obtain ⟨_, hid⟩ := Record.exists_of_required hid
  obtain ⟨_, hpayload⟩ := Record.exists_of_required hpayload
  obtain ⟨_, hdeliveries⟩ := Record.exists_of_required hdeliveries
  obtain ⟨_, hcreatedAt⟩ := Record.exists_of_required hcreatedAt
  exact ⟨TaskId.lt_of_decode hid, Document.normal_of_readMembers hpayload,
    Document.lt_of_readNat hdeliveries, Timestamp.nameable_of_decode hcreatedAt⟩

/-- The job stands among the members that must be there. -/
theorem perm_names : ["taskId", "jobId", "category", "kind", "payload", "state", "deliveries",
    "createdAt"].Perm (form.required ++ form.optional) := by
  decide

theorem faithful_form : form.Faithful Fits :=
  Form.faithful_of_record (r := record) (fun _ _ => rfl) (fun _ => perm_names) needs_record
    (fun _ => rfl) (fun _ => perm_names) (by decide)
    (fun _ ht _ _ hdepth htold => gives_record ht hdepth htold) fun _ _ _ => fits_of_assemble

end Task

/-! ### Observations -/

namespace Observation

/-- How observations are written and read. -/
def form : Form Observation where
  toJson := toJson
  decode := decodeWithin
  required := ["workerId", "graphId", "workerVersion", "lastSeen"]
  optional := []

/-- The time can be named. -/
def Fits (o : Observation) : Prop := o.lastSeen.Nameable

variable {levels : Nat} {ms : List (Name × Document)} {whole : Bool} {o : Observation}
  {others given : Members} {name : String}

theorem needs_record : record.Needs ["workerId", "lastSeen"] :=
  (Record.needs_required.map Prod.mk).seq Record.needs_required

/-- An observation names its own members and those of the category. -/
theorem mem_required_iff : name ∈ form.required ↔
    name ∈ ["workerId", "lastSeen"] ∨ name ∈ Category.form.required := by
  simp only [form, Category.form, List.mem_cons, List.not_mem_nil, or_false]
  grind

theorem gives_record (ho : o.Fits) {value : String → Option Document}
    (h : o.toJson.members.Told [] value) : record.Gives value (o.worker, o.lastSeen) :=
  ((Record.gives_required (h.value_eq 0 rfl (by simp)) o.worker.decode_toJson).map Prod.mk).seq
    (Record.gives_required (h.value_eq 3 rfl (by simp)) (Timestamp.decode_toJson ho))

/-- What is read of an observation: its own members, and the category among the others. -/
theorem decodeWithin_eq_ok_iff : decodeWithin levels (.object ms whole) = .ok o ↔ ∃ others,
    record.ofMembers (Document.toJson (levels - 1)) ms whole =
      .ok ((o.worker, o.lastSeen), others) ∧
    Category.decode (.object (Document.ofMembers others) true) = .ok o.category := by
  rw [decodeWithin, bind_eq_ok_iff]
  constructor
  · rintro ⟨⟨⟨worker, lastSeen⟩, others⟩, hread, hrest⟩
    obtain ⟨category, hcategory, hmade⟩ := bind_eq_ok_iff.mp hrest
    cases hmade
    exact ⟨others, hread, mapError_eq_ok_iff.mp hcategory⟩
  · rintro ⟨others, hread, hcategory⟩
    refine ⟨_, hread, bind_eq_ok_iff.mpr ⟨o.category, mapError_eq_ok_iff.mpr hcategory, ?_⟩⟩
    rfl

/-- The members that are the category's are passed on to it. -/
theorem countP_others {others : Members}
    (h : record.ofMembers (Document.toJson (levels - 1)) ms whole =
      .ok ((o.worker, o.lastSeen), others)) (hname : name ∈ Category.form.required) :
    (Document.ofMembers others).countP (·.1 = .text name) = ms.countP (·.1 = .text name) := by
  obtain ⟨-, hscan, -⟩ := Record.ofMembers_eq_ok_iff.mp h
  have hnot : Record.names record.fields name = false := by
    revert name
    decide
  rw [Record.countP_ofMembers, Record.countP_eq_of_scan hnot hscan]

/-- Each member that an observation names stands there once. -/
theorem countP_eq_one (h : decodeWithin levels (.object ms whole) = .ok o)
    (hname : name ∈ form.required) : ms.countP (·.1 = .text name) = 1 := by
  obtain ⟨others, hread, hcategory⟩ := decodeWithin_eq_ok_iff.mp h
  rcases mem_required_iff.mp hname with hown | hflat
  · obtain ⟨-, hscan, hassemble⟩ := Record.ofMembers_eq_ok_iff.mp hread
    have hle := Record.countP_le_of_scan (Record.names_iff.mpr hown) hscan
    have hne := mt Record.lookup_eq_none_iff.mpr (needs_record _ _ hassemble name hown)
    simp at hle
    omega
  · rw [← countP_others hread hflat]
    have hle := Record.countP_le_of_decode hcategory hflat
    have hne := Record.countP_ne_zero_of_decode hcategory Category.needs_record hflat
    omega

theorem nodup_members (o : Observation) : (o.toJson.members.map (·.1)).Nodup := by
  change ["workerId", "graphId", "workerVersion", "lastSeen"].Nodup
  decide

/-- The members that are passed on say the category, if its texts are passed on as they are. -/
theorem told_others {u : Json → Json} (hgiven : Members.Restates [] o.toJson.members given)
    (hstring : ∀ s, u (.string s) = .string s) :
    o.category.members.Told [] (Record.lookup (Document.ofMembers
      ((given.filter fun m => !Record.names record.fields m.1).map fun m => (m.1, u m.2)))) := by
  intro name v hm
  have hown : (name, v) ∈ o.toJson.members := by
    simp only [toJson, Json.members, List.mem_append]
    exact Or.inl (Or.inr hm)
  have hget : Members.get? name given = some v :=
    (hgiven.get?_eq o.nodup_members hown).resolve_right fun hleft => by cases hleft.1
  have hpassed : (!Record.names record.fields name) = true ∧ u v = v := by
    simp only [Category.members, List.mem_cons, Prod.mk.injEq, List.not_mem_nil, or_false] at hm
    rcases hm with ⟨rfl, rfl⟩ | ⟨rfl, rfl⟩
    · exact ⟨by decide, hstring _⟩
    · exact ⟨by decide, hstring _⟩
  refine Or.inl ?_
  rw [Record.lookup_ofMembers, Members.get?_map,
    Members.get?_filter (fun name => !Record.names record.fields name), if_pos hpassed.1, hget,
    Option.map_some, Option.map_some, hpassed.2]

/-- The category is read from the members that are passed on. -/
theorem decode_others {u : Json → Json} (hgiven : Members.Restates [] o.toJson.members given)
    (hstring : ∀ s, u (.string s) = .string s) :
    Category.decode (.object (Document.ofMembers
      ((given.filter fun m => !Record.names record.fields m.1).map fun m => (m.1, u m.2))) true) =
      .ok o.category := by
  refine Record.decode_of_gives (Category.gives_record (told_others hgiven hstring)) ?_
  have hnames : ((given.filter fun m => !Record.names record.fields m.1).map fun m =>
      (m.1, u m.2)).map (·.1) =
      (given.map (·.1)).filter fun name => !Record.names record.fields name := by
    rw [List.map_map, List.filter_map]
    rfl
  have hcategory : ∀ name, Record.names Category.record.fields name = true →
      name ∈ o.toJson.members.map (·.1) :=
    fun name hname => mem_required_iff.mpr (Or.inr (Record.names_iff.mp hname))
  rw [hnames]
  exact (hgiven.nodup o.nodup_members hcategory).sublist (List.filter_sublist.filter _)

theorem decodeWithin_of_restates (ho : o.Fits)
    (hgiven : Members.Restates [] o.toJson.members given)
    (hdepth : (Json.object given).depth ≤ levels) :
    decodeWithin levels (.ofJson (.object given)) = .ok o := by
  obtain ⟨k, rfl, hmembers⟩ := Json.depth_object_le_iff.mp hdepth
  -- Members of unknown names are read too, if not always as themselves: an object in one of them may
  -- have a name twice.
  let u : Json → Json := fun v => ((Document.toJson k (.ofJson v)).toOption).getD .null
  have hother : ∀ m ∈ given, Record.names record.fields m.1 = false →
      Document.toJson k (.ofJson m.2) = .ok (u m.2) := by
    intro m hm _
    obtain ⟨w, hw⟩ := Json.exists_toJson (hmembers m hm)
    simp [u, hw, Except.toOption]
  have hstring : ∀ s, u (.string s) = .string s := by
    intro s
    simp [u, Document.ofJson, Document.toJson, Except.toOption]
  have hnamed : ((given.map (·.1)).filter (Record.names record.fields)).Nodup :=
    hgiven.nodup o.nodup_members fun name hname =>
      mem_required_iff.mpr (Or.inl (Record.names_iff.mp hname))
  rw [Document.ofJson, decodeWithin_eq_ok_iff]
  exact ⟨_, Record.ofMembers_of_gives (gives_record ho (hgiven.told o.nodup_members)) hnamed hother,
    decode_others hgiven hstring⟩

theorem fits_of_decodeWithin {d : Document} (h : decodeWithin levels d = .ok o) : o.Fits := by
  cases d with
  | object ms whole =>
    obtain ⟨others, hread, -⟩ := decodeWithin_eq_ok_iff.mp h
    obtain ⟨-, -, hassemble⟩ := Record.ofMembers_eq_ok_iff.mp hread
    obtain ⟨_, lastSeen, hworker, hlastSeen, heq⟩ := Record.assemble_seq_eq_ok_iff.mp hassemble
    obtain ⟨worker, -, rfl⟩ := Record.assemble_map_eq_ok_iff.mp hworker
    obtain ⟨text, htext⟩ := Record.exists_of_required hlastSeen
    obtain rfl : lastSeen = o.lastSeen := congrArg Prod.snd heq
    exact Timestamp.nameable_of_decode htext
  | _ => cases h

theorem faithful_form : form.Faithful Fits := by
  have hwritten : ∀ o : Observation, form.toJson o = .object (form.toJson o).members :=
    fun _ => rfl
  refine ⟨hwritten, fun _ => .refl _, by decide,
    Form.read_of_restated hwritten fun o ho given levels => decodeWithin_of_restates ho,
    fun o ho given levels => decodeWithin_of_restates ho, ?_, ?_,
    fun _ _ _ => fits_of_decodeWithin⟩
  · intro name hname levels ms whole hcount
    refine exists_error fun o ho => ?_
    rw [countP_eq_one ho hname] at hcount
    exact absurd hcount (Nat.lt_irrefl 1)
  · intro name hname levels ms whole hcount
    refine exists_error fun o ho => ?_
    rw [countP_eq_one ho hname] at hcount
    cases hcount

end Observation

/-! ### All records -/

/-- The records of the exchange are read back from their objects, whatever their payload, their
numbers and their times, and whatever the order of the members and what else stands among them. -/
theorem records_faithful :
    Task.form.Faithful Task.Fits ∧ JobStatus.form.Faithful JobStatus.Fits ∧
      JobSummary.form.Faithful JobSummary.Fits ∧ Observation.form.Faithful Observation.Fits ∧
      Category.form.Faithful fun _ => True :=
  ⟨Task.faithful_form, JobStatus.faithful_form, JobSummary.faithful_form,
    Observation.faithful_form, Category.faithful_form⟩

/-- A task without a job, whose payload has members of the names of its own. -/
def namesakes : Task where
  id := ⟨7⟩
  job := none
  category := ⟨"graph", "1"⟩
  kind := .priority
  payload := [("jobId", .ofNat 3), ("taskId", .array [.null])]
  state := .inFlight
  deliveries := 2
  createdAt := ⟨-1, 500000000⟩

theorem fits_namesakes : namesakes.Fits where
  id := by decide
  payload := by
    refine .object (by simp [Members.Ordered]; decide) ?_
    refine List.forall_mem_cons.mpr ⟨.number _, List.forall_mem_cons.mpr ⟨.array ?_, by simp⟩⟩
    exact List.forall_mem_cons.mpr ⟨.null, by simp⟩
  deliveries := by decide
  createdAt := ⟨by decide, by decide, Or.inl (by decide)⟩

/-- It is read back when its members stand in the opposite order, the job is left out, and there is
one member more. -/
theorem records_faithful_namesakes : Task.form.decode Document.depthLimit (.ofJson (.object
    (("origin", .array [.ofNat 3]) :: (namesakes.toJson.members.eraseIdx 1).reverse))) =
    .ok namesakes := by
  refine records_faithful.1.restated namesakes fits_namesakes _ Document.depthLimit ?_ ?_
  · refine ⟨namesakes.toJson.members.eraseIdx 1, [("origin", .array [.ofNat 3])], ?_,
      List.eraseIdx_sublist .., fun m hm hnot => ?_, fun m hm => ?_⟩
    · exact ((List.reverse_perm _).cons _).trans (List.perm_append_singleton ..).symm
    · obtain ⟨i, hi⟩ := List.mem_iff_getElem?.mp hm
      by_cases hjob : i = 1
      · subst hjob
        cases hi
        exact ⟨by decide, rfl⟩
      · exact absurd (List.mem_eraseIdx_iff_getElem?.mpr ⟨i, hjob, hi⟩) hnot
    · obtain rfl := List.mem_singleton.mp hm
      decide
  · decide

end TaskExchange
