import TaskExchange.Codec.Submission
import TaskExchange.Proofs.Members

/-!
Mirror: what workers are given is what was submitted.  A task is delivered as the object that was
submitted, with the exchange's number in place of any other and without a job that is none, and the
delivered object makes the same request again when it is submitted.  Main statement:
`Submission.Reads.mirrored`, with `exists_reads` for the objects that are read.
-/

namespace TaskExchange

namespace Json

/-- Holds of null. -/
def isNull : Json → Bool
  | null => true
  | _ => false

end Json

/-- A task is delivered as it was submitted, by an object of these members that made this request;
so many levels of arrays and objects may be opened. -/
structure Mirrored (levels : Nat) (submitted : Members) (r : Request) (t : Task) : Prop where
  /-- The delivered object has no name twice.  The number is the exchange's, a job that is none is
  left out, and all other members say what they said. -/
  members : ∃ m, t.delivery = .object m ∧ (m.map (·.1)).Nodup ∧ ∀ name, Members.get? name m =
    if name = "taskId" then some t.id.toJson
    else (Members.get? name submitted).filter fun v => !(name = "jobId" && v.isNull)
  /-- It makes the same request. -/
  again : ∃ s, Submission.decode levels (.ofJson t.delivery) = .ok s ∧ s.toRequest = .ok r

/-- A task carries what was requested. -/
structure Task.Carries (t : Task) (r : Request) : Prop where
  job : t.job = r.job
  category : t.category = r.category
  payload : t.payload = r.payload

namespace Document

variable {d : Document} {s : String} {job : Option String}

theorem readString_eq_ok_iff : d.readString = .ok s ↔ d = .string s := by
  cases d <;> simp [readString, unwanted]

theorem orNull_readString_eq_ok_iff : Record.orNull readString d = .ok job ↔
    (d = .null ∧ job = none) ∨ ∃ s, d = .string s ∧ job = some s := by
  cases d <;> simp [Record.orNull, readString, Except.map, unwanted, eq_comm]

end Document

namespace Submission

variable {n : Nat} {d : Document} {s : Submission} {r : Request} {t : Task} {name : String}
  {value : String → Option Document} {job : Option String} {graph version : String}

/-! ### Which documents are submissions -/

/-- The test of a member that must be a text. -/
def textTest (d : Document) : Except Problem Unit := d.readString.map fun _ => ()

/-- The test of a member that may be a text. -/
def jobTest (d : Document) : Except Problem Unit :=
  (Record.orNull Document.readString d).map fun _ => ()

theorem fields_record : record.fields =
    [("jobId", jobTest), ("graphId", textTest), ("workerVersion", textTest)] := rfl

/-- The names that the exchange understands. -/
def understood : List String := ["jobId", "graphId", "workerVersion"]

theorem names_record (name : String) :
    Record.names record.fields name = decide (name ∈ understood) := by
  rw [fields_record, Record.names, understood]
  by_cases hjob : name = "jobId"
  · subst hjob; rfl
  · by_cases hgraph : name = "graphId"
    · subst hgraph; rfl
    · by_cases hversion : name = "workerVersion"
      · subst hversion; rfl
      · simp [List.find?, hjob, hgraph, hversion, Ne.symm hjob, Ne.symm hgraph, Ne.symm hversion]

theorem assemble_eq_ok_iff : record.assemble value = .ok (job, graph, version) ↔
    (Record.optional "jobId" Document.readString).assemble value = .ok job ∧
      value "graphId" = some (.string graph) ∧ value "workerVersion" = some (.string version) := by
  have hrequired : ∀ {name text}, (Record.required name Document.readString).assemble value =
      .ok text ↔ value name = some (.string text) := by
    intro name text
    cases h : value name <;> simp [Record.required, h, Document.readString_eq_ok_iff]
  rw [← hrequired, ← hrequired, record]
  simp only [Record.assemble_seq_eq_ok_iff, Record.assemble_map_eq_ok_iff]
  constructor
  · rintro ⟨_, _, ⟨_, _, ⟨_, hjob, rfl⟩, hgraph, rfl⟩, hversion, heq⟩
    cases heq
    exact ⟨hjob, hgraph, hversion⟩
  · rintro ⟨hjob, hgraph, hversion⟩
    exact ⟨_, _, ⟨_, _, ⟨_, hjob, rfl⟩, hgraph, rfl⟩, hversion, rfl⟩

theorem decode_eq_ok_iff : decode (n + 1) d = .ok s ↔ ∃ ms others, d = .object ms true ∧
    Record.scan record.fields (Document.toJson n) [] ms = .ok others ∧
    record.assemble (Record.lookup ms) = .ok (s.job, s.graph, s.version) ∧
    s.payload = Members.normalize others := by
  rw [decode]
  constructor
  · intro h
    cases d with
    | object ms whole =>
      rw [Record.decodeOpen, Nat.add_sub_cancel] at h
      obtain ⟨⟨⟨job, graph, version⟩, others⟩, hread, rfl⟩ := map_eq_ok_iff.mp h
      obtain ⟨rfl, hscan, hassemble⟩ := Record.ofMembers_eq_ok_iff.mp hread
      exact ⟨ms, others, rfl, hscan, hassemble, rfl⟩
    | _ => cases h
  · rintro ⟨ms, others, rfl, hscan, hassemble, hpayload⟩
    rw [Record.decodeOpen, Nat.add_sub_cancel,
      Record.ofMembers_eq_ok_iff.mpr ⟨rfl, hscan, hassemble⟩]
    cases s
    cases hpayload
    rfl

theorem toRequest_eq_ok_iff : s.toRequest = .ok r ↔
    Category.read s.graph s.version = .ok ⟨s.graph, s.version⟩ ∧
      r = ⟨s.job.map .mk, ⟨s.graph, s.version⟩, s.payload.erase "taskId"⟩ := by
  have hcategory : ∀ {c}, Category.read s.graph s.version = .ok c → c = ⟨s.graph, s.version⟩ := by
    intro c h
    rw [Category.read, mapError_eq_ok_iff] at h
    exact (Category.ofFields_eq_ok_iff.mp h).2.2
  rw [toRequest, bind_eq_ok_iff]
  constructor
  · rintro ⟨c, hread, hmade⟩
    obtain rfl := hcategory hread
    cases hmade
    exact ⟨hread, rfl⟩
  · rintro ⟨hread, rfl⟩
    exact ⟨_, hread, rfl⟩

/-! ### The value of a submission -/

/-- An object of these members was read as a submission. -/
structure Reads (n : Nat) (submitted : Members) (s : Submission) : Prop where
  job : (Members.get? "jobId" submitted).filter (!·.isNull) = s.job.map .string
  graph : Members.get? "graphId" submitted = some (.string s.graph)
  version : Members.get? "workerVersion" submitted = some (.string s.version)
  payload : ∀ name, Members.get? name s.payload =
    if name ∈ understood then none else Members.get? name submitted
  ordered : s.payload.Ordered
  stands : ∀ m ∈ s.payload, Document.Stands n m.2

/-- What passes a test is a text or null. -/
theorem exists_value_of_test (n : Nat) : ∀ f ∈ record.fields, ∀ d, f.2 d = .ok () →
    ∃ v, Document.toJson n d = .ok v := by
  have hnull : Document.toJson n .null = .ok .null := by rw [Document.toJson]
  have htext : ∀ text, Document.toJson n (.string text) = .ok (.string text) := fun text => by
    rw [Document.toJson]
  rw [fields_record]
  simp only [List.forall_mem_cons, List.not_mem_nil, false_imp_iff, implies_true, and_true]
  have hrequired : ∀ d, textTest d = .ok () → ∃ v, Document.toJson n d = .ok v := by
    intro d h
    obtain ⟨text, h, -⟩ := map_eq_ok_iff.mp h
    exact ⟨_, Document.readString_eq_ok_iff.mp h ▸ htext text⟩
  refine ⟨fun d h => ?_, hrequired, hrequired⟩
  obtain ⟨job, h, -⟩ := map_eq_ok_iff.mp h
  rcases Document.orNull_readString_eq_ok_iff.mp h with ⟨rfl, -⟩ | ⟨text, rfl, -⟩
  · exact ⟨_, hnull⟩
  · exact ⟨_, htext text⟩

/-- A submission that can be read is an object and has a value. -/
theorem exists_reads (h : decode (n + 1) d = .ok s) :
    ∃ submitted, d.toJson (n + 1) = .ok (.object submitted) ∧ Reads n submitted s := by
  obtain ⟨ms, others, rfl, hscan, hassemble, hpayload⟩ := decode_eq_ok_iff.mp h
  obtain ⟨hjob, hgraph, hversion⟩ := assemble_eq_ok_iff.mp hassemble
  obtain ⟨members, hmembers, rfl⟩ := Record.toJsonMembers_of_scan (exists_value_of_test n) hscan
  have htext : ∀ text, Document.toJson n (.string text) = .ok (.string text) := fun text => by
    rw [Document.toJson]
  refine ⟨_, Document.toJson_object_iff.mpr ⟨rfl, members, hmembers, rfl⟩, ?_⟩
  refine ⟨?_, ?_, ?_, fun name => ?_, ?_, fun m hm => ?_⟩
  · cases hd : Record.lookup ms "jobId" with
    | none =>
      have hs : none = s.job := by simpa [Record.optional, hd] using hjob
      rw [Record.get?_normalize_of_lookup_none hmembers hd, ← hs]
      rfl
    | some d =>
      have horNull : Record.orNull Document.readString d = .ok s.job := by
        simpa [Record.optional, hd] using hjob
      rcases Document.orNull_readString_eq_ok_iff.mp horNull with ⟨rfl, hs⟩ | ⟨text, rfl, hs⟩
      · rw [Record.get?_normalize_of_lookup hscan hmembers rfl hd (by rw [Document.toJson]), hs]
        rfl
      · rw [Record.get?_normalize_of_lookup hscan hmembers rfl hd (htext text), hs]
        rfl
  · exact Record.get?_normalize_of_lookup hscan hmembers rfl hgraph (htext _)
  · exact Record.get?_normalize_of_lookup hscan hmembers rfl hversion (htext _)
  · rw [hpayload, Record.get?_normalize_filter, names_record]
    simp only [decide_eq_true_eq]
  · exact hpayload ▸ Members.ordered_normalize _
  · rw [hpayload] at hm
    exact Document.stands_of_toJsonMembers hmembers m
      (List.mem_filter.mp (Members.mem_of_mem_normalize hm)).1

end Submission

/-! ### Deliveries -/

namespace Task

variable {t : Task} {r : Request}

/-- The members of a task as a worker is given it. -/
def members (t : Task) : Members :=
  ("taskId", t.id.toJson) :: (t.job.map fun job => ("jobId", job.toJson)).toList ++
    t.category.members ++ t.payload

theorem delivery_eq (t : Task) : t.delivery = .object t.members := by
  rw [delivery, members]
  cases t.job <;> rfl

theorem get?_members (t : Task) (name : String) : Members.get? name t.members =
    if name = "taskId" then some t.id.toJson
    else if name = "jobId" then (t.job.map JobId.toJson).or (Members.get? name t.payload)
    else if name = "graphId" then some (.string t.category.graph)
    else if name = "workerVersion" then some (.string t.category.version)
    else Members.get? name t.payload := by
  have hjob : Members.get? name (t.job.map fun job => ("jobId", job.toJson)).toList =
      if name = "jobId" then t.job.map JobId.toJson else none := by
    cases t.job <;> simp [Members.get?_cons, eq_comm]
  simp only [members, List.cons_append, Members.get?_cons, Members.get?_append, hjob,
    Category.members, Members.get?_nil, @eq_comm String _ name]
  split
  · rfl
  · split
    · next h => subst h; simp
    · split
      · simp
      · split <;> simp

theorem forall_members {p : String × Json → Prop} : (∀ m ∈ t.members, p m) ↔
    p ("taskId", t.id.toJson) ∧ (∀ job, t.job = some job → p ("jobId", job.toJson)) ∧
      p ("graphId", .string t.category.graph) ∧ p ("workerVersion", .string t.category.version) ∧
      ∀ m ∈ t.payload, p m := by
  have hjob : (∀ m ∈ (t.job.map fun job => ("jobId", job.toJson)).toList, p m) ↔
      ∀ job, t.job = some job → p ("jobId", job.toJson) := by
    cases t.job <;> simp
  simp only [members, List.forall_mem_append, List.forall_mem_cons, hjob, Category.members,
    List.not_mem_nil, false_imp_iff, implies_true, and_true, and_assoc]

end Task

namespace Submission

variable {n : Nat} {s : Submission} {r : Request} {t : Task} {submitted : Members}

section

variable (hreads : Reads n submitted s) (hr : s.toRequest = .ok r) (ht : t.Carries r)

include hreads hr ht

theorem Reads.get?_payload (name : String) : Members.get? name t.payload =
    if name = "taskId" ∨ name ∈ understood then none else Members.get? name submitted := by
  obtain ⟨-, rfl⟩ := toRequest_eq_ok_iff.mp hr
  rw [ht.payload, Members.get?_erase, hreads.payload]
  by_cases h : name = "taskId" <;> simp [h]

theorem Reads.notMem_payload {name : String} (hname : name = "taskId" ∨ name ∈ understood) :
    ∀ m ∈ t.payload, m.1 ≠ name := by
  rw [← Members.get?_eq_none_iff, hreads.get?_payload hr ht, if_pos hname]

theorem Reads.names_payload : ∀ m ∈ t.payload, Record.names record.fields m.1 = false := by
  intro m hm
  rw [names_record, decide_eq_false_iff_not]
  exact fun hin => hreads.notMem_payload hr ht (Or.inr hin) m hm rfl

theorem Reads.ordered_payload : t.payload.Ordered := by
  obtain ⟨-, rfl⟩ := toRequest_eq_ok_iff.mp hr
  rw [ht.payload]
  exact hreads.ordered.erase "taskId"

theorem Reads.nodup_members : (t.members.map (·.1)).Nodup := by
  have hfront : ("taskId" :: (t.job.map fun _ => "jobId").toList ++
      ["graphId", "workerVersion"]).Nodup := by
    cases t.job <;> simp
  have heq : t.members.map (·.1) = "taskId" :: (t.job.map fun _ => "jobId").toList ++
      ["graphId", "workerVersion"] ++ t.payload.map (·.1) := by
    cases h : t.job <;> simp [Task.members, h, Category.members]
  rw [heq]
  refine hfront.append (hreads.ordered_payload hr ht).nodup fun name hname hin => ?_
  obtain ⟨m, hm, rfl⟩ := List.mem_map.mp hin
  have hunderstood : m.1 = "taskId" ∨ m.1 ∈ understood := by
    cases h : t.job <;> simp only [h, understood] at hname ⊢ <;> simp at hname ⊢ <;> tauto
  exact hreads.notMem_payload hr ht hunderstood m hm rfl

theorem Reads.get?_members (name : String) : Members.get? name t.members =
    if name = "taskId" then some t.id.toJson
    else (Members.get? name submitted).filter fun v => !(name = "jobId" && v.isNull) := by
  have hpayload := hreads.get?_payload hr ht name
  obtain ⟨-, rfl⟩ := toRequest_eq_ok_iff.mp hr
  rw [t.get?_members]
  by_cases htask : name = "taskId"
  · rw [if_pos htask, if_pos htask]
  rw [if_neg htask, if_neg htask]
  by_cases hjob : name = "jobId"
  · subst hjob
    have htext : t.job.map JobId.toJson = s.job.map .string := by
      rw [ht.job, Option.map_map]
      rfl
    have hsame := hreads.job
    rw [if_pos rfl, hpayload, if_pos (by simp [understood]), htext, ← hsame]
    simp
  rw [if_neg hjob]
  have hfilter : (Members.get? name submitted).filter (fun v => !(name = "jobId" && v.isNull)) =
      Members.get? name submitted := by
    cases Members.get? name submitted <;> simp [hjob]
  rw [hfilter]
  by_cases hgraph : name = "graphId"
  · rw [if_pos hgraph, ht.category, hgraph, hreads.graph]
  rw [if_neg hgraph]
  by_cases hversion : name = "workerVersion"
  · rw [if_pos hversion, ht.category, hversion, hreads.version]
  rw [if_neg hversion, hpayload, if_neg (by simp [understood, htask, hjob, hgraph, hversion])]

/-- What is read of a delivered object besides the names that the exchange understands. -/
theorem Reads.filter_members : (t.members.filter fun m => !Record.names record.fields m.1) =
    ("taskId", t.id.toJson) :: t.payload := by
  have hpayload : ∀ m ∈ t.payload, (!Record.names record.fields m.1) = true := fun m hm => by
    rw [hreads.names_payload hr ht m hm, Bool.not_false]
  have hfront : (("taskId", t.id.toJson) :: (t.job.map fun job => ("jobId", job.toJson)).toList ++
      t.category.members).filter (fun m => !Record.names record.fields m.1) =
      [("taskId", t.id.toJson)] := by
    cases t.job <;> rfl
  rw [Task.members, List.filter_append, hfront, List.filter_eq_self.mpr hpayload]
  rfl

/-- The payload comes back when the exchange's number is dropped. -/
theorem Reads.erase_normalize :
    (Members.normalize (("taskId", t.id.toJson) :: t.payload)).erase "taskId" = t.payload := by
  have hordered := hreads.ordered_payload hr ht
  have hnot := hreads.notMem_payload hr ht (Or.inl rfl)
  have hnodup : ((("taskId", t.id.toJson) :: t.payload).map (·.1)).Nodup := by
    refine List.nodup_cons.mpr ⟨fun hin => ?_, hordered.nodup⟩
    obtain ⟨m, hm, heq⟩ := List.mem_map.mp hin
    exact hnot m hm heq
  refine Members.ext_get? ((Members.ordered_normalize _).erase _) hordered fun name => ?_
  rw [Members.get?_erase, Members.get?_normalize_of_nodup hnodup, Members.get?_cons]
  split
  · next h =>
    subst h
    exact (Members.get?_eq_none_iff.mpr hnot).symm
  · next h => rw [if_neg (Ne.symm h)]

/-- A delivered object is gone through when it is submitted: what the exchange understands passes
its tests, and the number and the payload have values. -/
theorem Reads.scan_members :
    Record.scan record.fields (Document.toJson n) [] (Document.ofMembers t.members) =
      .ok (("taskId", t.id.toJson) :: t.payload) := by
  rw [← hreads.filter_members hr ht]
  refine Record.scan_ofMembers (hreads.nodup_members hr ht) (by simp) ?_ ?_
  · refine Task.forall_members.mpr ⟨?_, ?_, ?_, ?_, fun m hm f hf => ?_⟩
    · rintro f ⟨⟩
    · rintro job - f ⟨⟩
      rfl
    · rintro f ⟨⟩
      rfl
    · rintro f ⟨⟩
      rfl
    · have hnames : Record.names record.fields m.1 = true := by rw [Record.names, hf]; rfl
      rw [hreads.names_payload hr ht m hm] at hnames
      cases hnames
  · refine Task.forall_members.mpr ⟨fun _ => ?_, ?_, ?_, ?_, fun m hm _ => ?_⟩
    · rw [Document.Stands, TaskId.toJson, Json.ofNat, Document.ofJson, Document.toJson]
    · rintro job - ⟨⟩
    · rintro ⟨⟩
    · rintro ⟨⟩
    · obtain ⟨-, rfl⟩ := toRequest_eq_ok_iff.mp hr
      exact hreads.stands m (List.mem_filter.mp (ht.payload ▸ hm)).1

/-- It says what the submission said. -/
theorem Reads.assemble_members : record.assemble (Record.lookup (Document.ofMembers t.members)) =
    .ok (s.job, s.graph, s.version) := by
  have hnojob : Members.get? "jobId" t.payload = none :=
    Members.get?_eq_none_iff.mpr (hreads.notMem_payload hr ht (by simp [understood]))
  obtain ⟨-, rfl⟩ := toRequest_eq_ok_iff.mp hr
  have hjob : Record.lookup (Document.ofMembers t.members) "jobId" = s.job.map .string := by
    rw [Record.lookup_ofMembers, t.get?_members, if_neg (by decide), if_pos rfl, hnojob,
      Option.or_none, ht.job]
    cases s.job <;> rfl
  refine assemble_eq_ok_iff.mpr ⟨?_, ?_, ?_⟩
  · cases hs : s.job <;> simp [Record.optional, hjob, hs, Document.orNull_readString_eq_ok_iff]
  · rw [Record.lookup_ofMembers, t.get?_members, ht.category]
    rfl
  · rw [Record.lookup_ofMembers, t.get?_members, ht.category]
    rfl

theorem Reads.again :
    ∃ s', decode (n + 1) (.ofJson t.delivery) = .ok s' ∧ s'.toRequest = .ok r := by
  have hdocument : Document.ofJson t.delivery = .object (Document.ofMembers t.members) true := by
    rw [t.delivery_eq, Document.ofJson]
  have hscan := hreads.scan_members hr ht
  have hassemble := hreads.assemble_members hr ht
  obtain ⟨hcategory, rfl⟩ := toRequest_eq_ok_iff.mp hr
  refine ⟨⟨s.job, s.graph, s.version, Members.normalize (("taskId", t.id.toJson) :: t.payload)⟩,
    decode_eq_ok_iff.mpr ⟨_, _, hdocument, hscan, hassemble, rfl⟩, ?_⟩
  rw [toRequest_eq_ok_iff, hreads.erase_normalize hr ht, ht.payload]
  exact ⟨hcategory, rfl⟩

/-- A task that carries the request of a submission is delivered as it was submitted. -/
theorem Reads.mirrored : Mirrored (n + 1) submitted r t where
  members := ⟨t.members, t.delivery_eq, hreads.nodup_members hr ht, hreads.get?_members hr ht⟩
  again := hreads.again hr ht

end

/-- The exchange's number stands for the producer's, and a job that is null is left out. -/
example :
    let doc := Document.ofJson (.object [("graphId", .string "g"), ("jobId", .null),
      ("origin", .array [.ofNat 3]), ("taskId", .ofNat 99), ("workerVersion", .string "1")])
    ((decode 3 doc).toOption.bind (·.toRequest.toOption)).map
        (fun r => (Task.ofRequest ⟨7⟩ .priority default r).delivery) =
      some (.object [("taskId", .ofNat 7), ("graphId", .string "g"),
        ("workerVersion", .string "1"), ("origin", .array [.ofNat 3])]) := by
  rfl

end Submission

end TaskExchange
