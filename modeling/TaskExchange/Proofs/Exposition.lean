import TaskExchange.Metrics
import TaskExchange.Proofs.Sighting

/-!
Exposition: the metrics as those read them who fetch them.  A reader splits the text at line ends.
A line is blank, a comment, or a sample of a name, labels and a value; the values of labels stand
between quotes with some characters escaped.  Main statements: what was escaped is read as what was
meant (`readQuoted_escape`), so is a sample (`readSample_sample`), and a text of such lines is read
line by line (`Shows.read_join`); the metrics are such a text (`faithful_text`).
-/

namespace TaskExchange.Metrics

/-- A sample as it is read. -/
structure Sample where
  metric : String
  labels : List (String × String)
  value : Nat

/-- A line as it is read. -/
inductive Line where
  | blank
  | comment (text : String)
  | sample (s : Sample)

/-- The sample of a line, if it has one. -/
def Line.sample? : Line → Option Sample
  | .sample s => some s
  | _ => none

/-! ### Reading -/

/-- The character that is meant by one after a backslash. -/
def unescape? : Char → Option Char
  | '\\' => some '\\'
  | '"' => some '"'
  | 'n' => some '\n'
  | _ => none

/-- Reads up to the quote that is not escaped; gives what was meant, and the rest. -/
def readQuoted : List Char → Option (List Char × List Char)
  | [] => none
  | '"' :: rest => some ([], rest)
  | '\\' :: [] => none
  | '\\' :: c :: rest =>
    (unescape? c).bind fun c => (readQuoted rest).map fun (value, rest) => (c :: value, rest)
  | c :: rest => (readQuoted rest).map fun (value, rest) => (c :: value, rest)

/-- Names are made of these. -/
def isNameChar (c : Char) : Bool := c.isAlphanum || c = '_' || c = ':'

/-- Reads a label with its value. -/
def readLabel (cs : List Char) : Option ((String × String) × List Char) :=
  match cs.span isNameChar with
  | (name, '=' :: '"' :: rest) =>
    if name.isEmpty then none
    else (readQuoted rest).map fun (value, rest) =>
      ((String.ofList name, String.ofList value), rest)
  | _ => none

theorem length_readQuoted : ∀ {cs value rest : List Char},
    readQuoted cs = some (value, rest) → rest.length < cs.length := by
  intro cs
  induction cs using readQuoted.induct with
  | case1 => intro _ _ h; simp [readQuoted] at h
  | case2 rest => intro _ _ h; simp [readQuoted] at h; simp [h]
  | case3 => intro _ _ h; simp [readQuoted] at h
  | case4 c rest ih =>
    intro _ _ h
    simp only [readQuoted, Option.bind_eq_some_iff, Option.map_eq_some_iff] at h
    obtain ⟨c', -, ⟨value, rest'⟩, hread, heq⟩ := h
    cases heq
    exact Nat.lt_trans (ih hread) (Nat.lt_add_of_pos_right Nat.two_pos)
  | case5 c rest h₁ h₂ h₃ ih =>
    intro _ _ h
    simp only [readQuoted, Option.map_eq_some_iff] at h
    obtain ⟨⟨value, rest'⟩, hread, heq⟩ := h
    cases heq
    exact Nat.lt_trans (ih hread) (by simp)

theorem length_readLabel {cs : List Char} {l : String × String} {rest : List Char}
    (h : readLabel cs = some (l, rest)) : rest.length < cs.length := by
  have hspan : (cs.span isNameChar).2.length ≤ cs.length := by
    rw [List.span_eq_takeWhile_dropWhile]
    exact (List.dropWhile_sublist _).length_le
  rw [readLabel] at h
  split at h
  · next name after heq =>
    rw [heq] at hspan
    split at h
    · cases h
    · obtain ⟨⟨value, rest'⟩, hread, hlabel⟩ := Option.map_eq_some_iff.mp h
      cases hlabel
      have := length_readQuoted hread
      simp only [List.length_cons] at hspan
      omega
  · cases h

/-- Reads labels up to the closing brace. -/
def readLabels (cs : List Char) : Option (List (String × String) × List Char) :=
  match _h : readLabel cs with
  | some (l, ',' :: rest) => (readLabels rest).map fun (labels, rest) => (l :: labels, rest)
  | some (l, '\x7d' :: rest) => some ([l], rest)
  | _ => none
termination_by cs.length
decreasing_by
  have := length_readLabel _h
  simp only [List.length_cons] at this
  omega

theorem readLabels_comma {cs rest : List Char} {l : String × String}
    (h : readLabel cs = some (l, ',' :: rest)) :
    readLabels cs = (readLabels rest).map fun (labels, rest) => (l :: labels, rest) := by
  rw [readLabels]
  split
  · next heq => cases h.symm.trans heq; rfl
  · next heq => cases h.symm.trans heq
  · next hcomma _ => exact absurd h (hcomma l rest)

theorem readLabels_close {cs rest : List Char} {l : String × String}
    (h : readLabel cs = some (l, '\x7d' :: rest)) : readLabels cs = some ([l], rest) := by
  rw [readLabels]
  split
  · next heq => cases h.symm.trans heq
  · next heq => cases h.symm.trans heq; rfl
  · next hclose => exact absurd h (hclose l rest)

/-- Reads a sample: a name, labels in braces if there are any, a blank and a number. -/
def readSample (cs : List Char) : Option Sample :=
  match cs.span isNameChar with
  | ([], _) => none
  | (metric, ' ' :: digits) =>
    (Text.digitsValue? digits).map fun value => ⟨String.ofList metric, [], value⟩
  | (metric, '\x7b' :: rest) =>
    match readLabels rest with
    | some (labels, ' ' :: digits) =>
      (Text.digitsValue? digits).map fun value => ⟨String.ofList metric, labels, value⟩
    | _ => none
  | _ => none

/-- Reads a line. -/
def readLine : List Char → Option Line
  | [] => some .blank
  | '#' :: rest => some (.comment (String.ofList rest))
  | cs => (readSample cs).map .sample

/-- Reads a text, line by line. -/
def read (text : String) : Option (List Line) := (text.toList.splitOn '\n').mapM readLine

/-! ### Escaped texts -/

theorem toList_escapeLabel (v : String) :
    (escapeLabel v).toList = v.toList.flatMap escapeLabelChar := by
  rw [escapeLabel, String.toList_ofList]

/-- A character stands for itself, unless it is a backslash, a quote or a line end. -/
theorem escapeLabelChar_cases (c : Char) :
    (c = '\\' ∧ escapeLabelChar c = ['\\', '\\']) ∨ (c = '"' ∧ escapeLabelChar c = ['\\', '"']) ∨
    (c = '\n' ∧ escapeLabelChar c = ['\\', 'n']) ∨
    (c ≠ '\\' ∧ c ≠ '"' ∧ c ≠ '\n' ∧ escapeLabelChar c = [c]) := by
  by_cases hback : c = '\\'
  · exact Or.inl ⟨hback, by simp [escapeLabelChar, hback]⟩
  · by_cases hquote : c = '"'
    · exact Or.inr (Or.inl ⟨hquote, by simp [escapeLabelChar, hquote]⟩)
    · by_cases hend : c = '\n'
      · exact Or.inr (Or.inr (Or.inl ⟨hend, by simp [escapeLabelChar, hend]⟩))
      · exact Or.inr (Or.inr (Or.inr ⟨hback, hquote, hend,
          by simp [escapeLabelChar, hback, hquote, hend]⟩))

/-- What was escaped is read as what was meant, up to the quote that ends it. -/
theorem readQuoted_escape : ∀ (cs rest : List Char),
    readQuoted (cs.flatMap escapeLabelChar ++ '"' :: rest) = some (cs, rest)
  | [], rest => rfl
  | c :: cs, rest => by
    have hcs := readQuoted_escape cs rest
    rw [List.flatMap_cons, List.append_assoc]
    rcases escapeLabelChar_cases c with ⟨rfl, hc⟩ | ⟨rfl, hc⟩ | ⟨rfl, hc⟩ | ⟨hback, hquote, -, hc⟩
    · simp [hc, readQuoted, unescape?, hcs]
    · simp [hc, readQuoted, unescape?, hcs]
    · simp [hc, readQuoted, unescape?, hcs]
    · simp [hc, readQuoted, hback, hcs]

theorem newline_notMem_escapeLabelChar (c : Char) : '\n' ∉ escapeLabelChar c := by
  intro hin
  rcases escapeLabelChar_cases c with ⟨-, hc⟩ | ⟨-, hc⟩ | ⟨-, hc⟩ | ⟨-, -, hne, hc⟩
  · simp [hc] at hin
  · simp [hc] at hin
  · simp [hc] at hin
  · rw [hc, List.mem_singleton] at hin
    exact hne hin.symm

theorem newline_notMem_escapeLabel (v : String) : '\n' ∉ (escapeLabel v).toList := by
  rw [toList_escapeLabel, List.mem_flatMap]
  rintro ⟨c, -, hin⟩
  exact newline_notMem_escapeLabelChar c hin

/-- How many backslashes stand at the end of a text. -/
def backslashes (cs : List Char) : Nat := (cs.reverse.takeWhile (· = '\\')).length

theorem backslashes_concat (cs : List Char) (c : Char) :
    backslashes (cs ++ [c]) = if c = '\\' then backslashes cs + 1 else 0 := by
  by_cases h : c = '\\' <;> simp [backslashes, h]

/-- Backslashes are escaped in pairs. -/
theorem backslashes_escape (cs : List Char) : backslashes (cs.flatMap escapeLabelChar) % 2 = 0 := by
  induction cs using List.reverseRecOn with
  | nil => rfl
  | append_singleton cs c ih =>
    rw [List.flatMap_append, List.flatMap_singleton]
    rcases escapeLabelChar_cases c with ⟨-, hc⟩ | ⟨-, hc⟩ | ⟨-, hc⟩ | ⟨hne, -, -, hc⟩
    · rw [hc, List.append_cons, backslashes_concat, if_pos rfl, backslashes_concat, if_pos rfl]
      omega
    · rw [hc, List.append_cons, backslashes_concat, if_neg (by decide)]
    · rw [hc, List.append_cons, backslashes_concat, if_neg (by decide)]
    · rw [hc, backslashes_concat, if_neg hne]

/-- Of the characters, only a quote has a quote in it when it is escaped. -/
theorem eq_quote_of_escape {c : Char} {before after : List Char}
    (h : escapeLabelChar c = before ++ '"' :: after) : c = '"' ∧ before = ['\\'] := by
  rcases escapeLabelChar_cases c with ⟨-, hc⟩ | ⟨rfl, hc⟩ | ⟨-, hc⟩ | ⟨-, hne, -, hc⟩
  · rcases before with _ | ⟨b, _ | ⟨b', before⟩⟩ <;> simp [hc] at h
  · rcases before with _ | ⟨b, _ | ⟨b', before⟩⟩
    · simp [hc] at h
    · rw [hc] at h
      exact ⟨rfl, congrArg ([·]) (List.cons.inj h).1.symm⟩
    · simp [hc] at h
  · rcases before with _ | ⟨b, _ | ⟨b', before⟩⟩ <;> simp [hc] at h
  · rcases before with _ | ⟨b, _ | ⟨b', before⟩⟩ <;> simp [hc, hne] at h

/-- A quote in an escaped text stands for a quote, after a backslash of its own. -/
theorem quote_of_escape : ∀ {cs before after : List Char},
    cs.flatMap escapeLabelChar = before ++ '"' :: after →
    ∃ first rest, cs = first ++ '"' :: rest ∧ before = first.flatMap escapeLabelChar ++ ['\\']
  | [], before, after, h => by simp at h
  | c :: cs, before, after, h => by
    rw [List.flatMap_cons] at h
    rcases List.append_eq_append_iff.mp h with ⟨more, rfl, hmore⟩ | ⟨more, hc, hmore⟩
    · obtain ⟨first, rest, rfl, rfl⟩ := quote_of_escape hmore
      exact ⟨c :: first, rest, rfl, by simp⟩
    · cases more with
      | nil =>
        have hempty : cs.flatMap escapeLabelChar = [] ++ '"' :: after := hmore.symm
        obtain ⟨first, rest, -, hnil⟩ := quote_of_escape hempty
        simp at hnil
      | cons q more =>
        obtain ⟨rfl, -⟩ := List.cons.inj hmore
        obtain ⟨rfl, rfl⟩ := eq_quote_of_escape hc
        exact ⟨[], cs, rfl, rfl⟩

/-- A quote in an escaped text stands after an odd number of backslashes, so it is escaped. -/
theorem backslashes_of_quote {cs before after : List Char}
    (h : cs.flatMap escapeLabelChar = before ++ '"' :: after) : backslashes before % 2 = 1 := by
  obtain ⟨first, rest, -, rfl⟩ := quote_of_escape h
  have heven := backslashes_escape first
  rw [backslashes_concat, if_pos rfl]
  omega

/-! ### Samples -/

/-- Holds of a name of a metric or of a label. -/
def IsName (name : String) : Prop := name.toList ≠ [] ∧ name.toList.all isNameChar = true

instance (name : String) : Decidable (IsName name) :=
  inferInstanceAs (Decidable (_ ∧ _))

/-- The labels of a sample as they are written between the braces. -/
def labelText (labels : List (String × String)) : String :=
  String.intercalate "," (labels.map fun (n, v) => label n v)

variable {name metric : String} {labels : List (String × String)} {rest : List Char} {value : Nat}

theorem span_name (h : IsName name) {c : Char} (hc : isNameChar c = false) (rest : List Char) :
    (name.toList ++ c :: rest).span isNameChar = (name.toList, c :: rest) := by
  have hchars := List.all_eq_true.mp h.2
  rw [List.span_eq_takeWhile_dropWhile, List.takeWhile_append_of_pos hchars,
    List.dropWhile_append_of_pos hchars]
  simp [hc]

theorem toList_label (name v : String) : (label name v).toList =
    name.toList ++ '=' :: '"' :: (v.toList.flatMap escapeLabelChar ++ ['"']) := by
  simp [label, toList_escapeLabel]

theorem readLabel_label (h : IsName name) (v : String) (rest : List Char) :
    readLabel ((label name v).toList ++ rest) = some ((name, v), rest) := by
  have hspan := span_name h (c := '=') rfl
    ('"' :: (v.toList.flatMap escapeLabelChar ++ '"' :: rest))
  have htext : (label name v).toList ++ rest =
      name.toList ++ '=' :: '"' :: (v.toList.flatMap escapeLabelChar ++ '"' :: rest) := by
    simp [toList_label]
  rw [readLabel, htext, hspan]
  simp [h.1, readQuoted_escape]

/-- Labels are read as they were written, up to the brace that closes them. -/
theorem readLabels_labelText (rest : List Char) : ∀ {labels : List (String × String)},
    labels ≠ [] → (∀ l ∈ labels, IsName l.1) →
    readLabels ((labelText labels).toList ++ '\x7d' :: rest) = some (labels, rest)
  | [], hne, _ => absurd rfl hne
  | [(n, v)], _, hnames => by
    have htext : (labelText [(n, v)]).toList = (label n v).toList := by simp [labelText]
    rw [htext]
    exact readLabels_close (readLabel_label (hnames (n, v) (by simp)) v ('\x7d' :: rest))
  | (n, v) :: l :: labels, _, hnames => by
    obtain ⟨hname, hrest⟩ := List.forall_mem_cons.mp hnames
    have htext : (labelText ((n, v) :: l :: labels)).toList ++ '\x7d' :: rest =
        (label n v).toList ++ ',' :: ((labelText (l :: labels)).toList ++ '\x7d' :: rest) := by
      simp [labelText]
    rw [htext, readLabels_comma (readLabel_label hname v _),
      readLabels_labelText rest (List.cons_ne_nil l labels) hrest]
    rfl

theorem digitsValue?_toDigits (n : Nat) : Text.digitsValue? (Nat.toDigits 10 n) = some n := by
  have hall : (Nat.toDigits 10 n).all Char.isDigit = true :=
    List.all_eq_true.mpr fun c hc => Nat.isDigit_of_mem_toDigits (by decide) (by decide) hc
  have hvalue := Nat.ofDigitChars_ten_toDigits (n := n)
  rw [Nat.ofDigitChars_eq_foldl] at hvalue
  rw [Text.digitsValue?, hall, if_neg (by simp [Nat.toDigits_ne_nil])]
  exact congrArg some hvalue

theorem toList_sample_nil (metric : String) (value : Nat) : (sample metric [] value).toList =
    metric.toList ++ ' ' :: Nat.toDigits 10 value := by
  simp [sample]

theorem toList_sample_cons (metric : String) (l : String × String)
    (labels : List (String × String)) (value : Nat) : (sample metric (l :: labels) value).toList =
    metric.toList ++ '\x7b' ::
      ((labelText (l :: labels)).toList ++ '\x7d' :: ' ' :: Nat.toDigits 10 value) := by
  simp [sample, labelText]

/-- A sample is read as it was meant. -/
theorem readSample_sample (hmetric : IsName metric) (hlabels : ∀ l ∈ labels, IsName l.1)
    (value : Nat) : readSample (sample metric labels value).toList =
      some ⟨metric, labels, value⟩ := by
  obtain ⟨c, cs, hcs⟩ := List.exists_cons_of_ne_nil hmetric.1
  have hname : String.ofList (c :: cs) = metric := by rw [← hcs, String.ofList_toList]
  cases labels with
  | nil =>
    rw [readSample, toList_sample_nil, span_name hmetric rfl]
    simp [hcs, hname, digitsValue?_toDigits]
  | cons l labels =>
    rw [readSample, toList_sample_cons, span_name hmetric rfl]
    simp [hcs, hname, digitsValue?_toDigits,
      readLabels_labelText _ (List.cons_ne_nil l labels) hlabels]

theorem newline_notMem_name (h : IsName name) : '\n' ∉ name.toList := fun hin => by
  have := List.all_eq_true.mp h.2 _ hin
  simp [isNameChar] at this

theorem newline_notMem_label (h : IsName name) (v : String) : '\n' ∉ (label name v).toList := by
  simp [label, newline_notMem_name h, newline_notMem_escapeLabel]

theorem newline_notMem_labelText (h : ∀ l ∈ labels, IsName l.1) :
    '\n' ∉ (labelText labels).toList := by
  induction labels with
  | nil => simp [labelText]
  | cons l labels ih =>
    obtain ⟨hname, hrest⟩ := List.forall_mem_cons.mp h
    have hlabel := newline_notMem_label hname l.2
    cases labels with
    | nil => simpa [labelText] using hlabel
    | cons l' labels =>
      have htext : (labelText (l :: l' :: labels)).toList =
          (label l.1 l.2).toList ++ ',' :: (labelText (l' :: labels)).toList := by simp [labelText]
      simp [htext, hlabel, ih hrest]

theorem newline_notMem_sample (hmetric : IsName metric) (hlabels : ∀ l ∈ labels, IsName l.1)
    (value : Nat) : '\n' ∉ (sample metric labels value).toList := by
  have hdigits : '\n' ∉ Nat.toDigits 10 value := fun hin => by
    simpa using Nat.isDigit_of_mem_toDigits (by decide) (by decide) hin
  have hname := newline_notMem_name hmetric
  cases labels with
  | nil => simp [toList_sample_nil, hname, hdigits]
  | cons l labels =>
    simp [toList_sample_cons, hname, hdigits, newline_notMem_labelText hlabels]

/-- Labels that are written alike are the same. -/
theorem labelText_injective {labels' : List (String × String)} (hne : labels ≠ [])
    (hne' : labels' ≠ []) (h : ∀ l ∈ labels, IsName l.1) (h' : ∀ l ∈ labels', IsName l.1)
    (heq : labelText labels = labelText labels') : labels = labels' := by
  have hread := readLabels_labelText [] hne h
  have hread' := readLabels_labelText [] hne' h'
  rw [heq, hread'] at hread
  exact (Prod.ext_iff.mp (Option.some.inj hread)).1.symm

/-! ### Lines -/

theorem readLine_of_readSample {cs : List Char} {s : Sample} (h : readSample cs = some s) :
    readLine cs = some (.sample s) := by
  rw [readLine.eq_def]
  split
  · simp [readSample, List.span_eq_takeWhile_dropWhile] at h
  · simp [readSample, List.span_eq_takeWhile_dropWhile, isNameChar] at h
  · rw [h, Option.map_some]

/-- A text is read line by line. -/
theorem read_cons (line text : String) {l : Line} {ls : List Line} (hend : '\n' ∉ line.toList)
    (hline : readLine line.toList = some l) (htext : read text = some ls) :
    read (line ++ "\n" ++ text) = some (l :: ls) := by
  have hlist : (line ++ "\n" ++ text).toList = line.toList ++ '\n' :: text.toList := by simp
  rw [read, hlist, List.splitOn_append_cons_self_of_not_mem hend, List.mapM_cons, hline]
  rw [read] at htext
  rw [htext]
  rfl

/-- Some lines show these samples, one a line, and are blank or comments otherwise. -/
inductive Shows : List String → List Sample → Prop where
  | nil : Shows [] []
  | blank {lines samples} : Shows lines samples → Shows ("" :: lines) samples
  | comment {line lines samples} : '\n' ∉ line.toList →
      (∃ text, readLine line.toList = some (.comment text)) → Shows lines samples →
      Shows (line :: lines) samples
  | sample {line s lines samples} : '\n' ∉ line.toList →
      readLine line.toList = some (.sample s) → Shows lines samples →
      Shows (line :: lines) (s :: samples)

namespace Shows

variable {lines lines' : List String} {samples samples' : List Sample}

theorem append (h : Shows lines samples) (h' : Shows lines' samples') :
    Shows (lines ++ lines') (samples ++ samples') := by
  induction h with
  | nil => exact h'
  | blank _ ih => exact ih.blank
  | comment hend hread _ ih => exact ih.comment hend hread
  | sample hend hread _ ih => exact ih.sample hend hread

theorem heading {metric help : String} (hmetric : '\n' ∉ metric.toList)
    (hhelp : '\n' ∉ help.toList) (h : Shows lines samples) :
    Shows (heading metric help ++ lines) samples := by
  refine .comment ?_ ?_ (.comment ?_ ?_ h)
  · simp [hmetric, hhelp]
  · simp [readLine]
  · simp [hmetric]
  · simp [readLine]

theorem gauge (hmetric : IsName metric) (hlabels : ∀ l ∈ labels, IsName l.1) (value : Nat)
    (h : Shows lines samples) :
    Shows (Metrics.sample metric labels value :: lines) (⟨metric, labels, value⟩ :: samples) :=
  h.sample (newline_notMem_sample hmetric hlabels value)
    (readLine_of_readSample (readSample_sample hmetric hlabels value))

/-- The text of the lines can be read, and it has these samples. -/
theorem read_join (h : Shows lines samples) :
    ∃ ls, read (String.join (lines.map (· ++ "\n"))) = some ls ∧
      ls.filterMap Line.sample? = samples := by
  induction h with
  | nil => exact ⟨[.blank], rfl, rfl⟩
  | blank _ ih =>
    obtain ⟨ls, hread, rfl⟩ := ih
    exact ⟨.blank :: ls, by simpa using read_cons "" _ (by simp) rfl hread, rfl⟩
  | comment hend hline _ ih =>
    obtain ⟨text, hline⟩ := hline
    obtain ⟨ls, hread, rfl⟩ := ih
    exact ⟨.comment _ :: ls, by simpa using read_cons _ _ hend hline hread, rfl⟩
  | sample hend hline _ ih =>
    obtain ⟨ls, hread, rfl⟩ := ih
    exact ⟨_, by simpa using read_cons _ _ hend hline hread, rfl⟩

end Shows

/-! ### The metrics -/

/-- The samples about tasks, jobs and connections. -/
def gauges (counts : Counts) : List Sample :=
  [⟨"analyst_broker_tasks", [("kind", "regional"), ("state", "queued")], counts.queuedRegional⟩,
    ⟨"analyst_broker_tasks", [("kind", "single"), ("state", "queued")], counts.queuedPriority⟩,
    ⟨"analyst_broker_tasks", [("state", "in_flight")], counts.inFlight⟩,
    ⟨"analyst_broker_jobs", [], counts.jobs⟩,
    ⟨"analyst_broker_parked_connections", [("role", "worker"), ("kind", "regional")],
      counts.parkedRegional⟩,
    ⟨"analyst_broker_parked_connections", [("role", "worker"), ("kind", "single")],
      counts.parkedPriority⟩,
    ⟨"analyst_broker_parked_connections", [("role", "producer"), ("kind", "single")],
      counts.waitingProducers⟩]

/-- The labels of a category. -/
def categoryLabels (c : Category) : List (String × String) :=
  [("graph", c.graph), ("version", c.version)]

/-- What the text of the metrics says, whatever the categories are called. -/
structure Faithful (x : Exchange) : Prop where
  /-- Each line is blank, a comment or one sample; the workers have a sample a category. -/
  samples : ∃ ls, read (text x) = some ls ∧ ls.filterMap Line.sample? = gauges x.counts ++
    x.catalog.byCategory.map fun (c, n) => ⟨"analyst_broker_workers", categoryLabels c, n⟩
  increasing : x.catalog.byCategory.Pairwise fun a b =>
    a.1.graph < b.1.graph ∨ a.1.graph = b.1.graph ∧ a.1.version < b.1.version
  counted : ∀ c n, (c, n) ∈ x.catalog.byCategory ↔
    n = x.catalog.observations.countP (·.category = c) ∧ 0 < n
  total : (x.catalog.byCategory.map (·.2)).sum = x.catalog.seen.size
  /-- A text that was escaped is read as it was, up to the quote after it. -/
  undone : ∀ (v : String) rest,
    readQuoted ((escapeLabel v).toList ++ '"' :: rest) = some (v.toList, rest)
  unbroken : ∀ v, '\n' ∉ (escapeLabel v).toList
  /-- A quote in it is escaped: the backslash before it is not itself escaped by another. -/
  quotes : ∀ v before after, (escapeLabel v).toList = before ++ '"' :: after →
    backslashes before % 2 = 1
  distinct : ∀ c c', labelText (categoryLabels c) = labelText (categoryLabels c') → c = c'

theorem shows_taskLines (counts : Counts) :
    Shows (taskLines counts) ((gauges counts).take 4) :=
  .heading (by decide) (by decide) <|
    .gauge (by decide) (by decide) _ <| .gauge (by decide) (by decide) _ <|
    .gauge (by decide) (by decide) _ <| .blank <|
    .heading (by decide) (by decide) <| .gauge (by decide) (by decide) _ .nil

theorem shows_connectionLines (counts : Counts) :
    Shows (connectionLines counts) ((gauges counts).drop 4) :=
  .blank <| .heading (by decide) (by decide) <|
    .gauge (by decide) (by decide) _ <| .gauge (by decide) (by decide) _ <|
    .gauge (by decide) (by decide) _ .nil

theorem isName_of_mem_categoryLabels {c : Category} {l : String × String}
    (h : l ∈ categoryLabels c) : IsName l.1 := by
  simp only [categoryLabels, List.mem_cons, List.not_mem_nil, or_false] at h
  have hnames : IsName "graph" ∧ IsName "version" := by decide
  rcases h with rfl | rfl
  · exact hnames.1
  · exact hnames.2

theorem shows_workerLines (byCategory : List (Category × Nat)) : Shows (workerLines byCategory)
    (byCategory.map fun (c, n) => ⟨"analyst_broker_workers", categoryLabels c, n⟩) := by
  refine .blank (.heading (by decide) (by decide) ?_)
  induction byCategory with
  | nil => exact .nil
  | cons entry byCategory ih =>
    exact ih.gauge (by decide) (fun _ => isName_of_mem_categoryLabels) entry.2

theorem shows_lines (x : Exchange) : Shows (lines x) (gauges x.counts ++
    x.catalog.byCategory.map fun (c, n) =>
      ⟨"analyst_broker_workers", categoryLabels c, n⟩) := by
  have hcounts := (shows_taskLines x.counts).append (shows_connectionLines x.counts)
  rw [List.take_append_drop] at hcounts
  exact hcounts.append (shows_workerLines _)

/-- The categories of workers stand in the order of their graphs, then of their versions. -/
theorem increasing_byCategory (c : Catalog) : c.byCategory.Pairwise fun a b =>
    a.1.graph < b.1.graph ∨ a.1.graph = b.1.graph ∧ a.1.version < b.1.version := by
  refine c.pairwise_byCategory.imp fun {a b} hlt => ?_
  rw [Category.compare_eq, Ordering.then_eq_lt] at hlt
  rcases hlt with hlt | ⟨heq, hlt⟩
  · exact Or.inl (compareOfLessAndEq_eq_lt.mp hlt)
  · exact Or.inr ⟨Std.LawfulEqOrd.eq_of_compare heq, compareOfLessAndEq_eq_lt.mp hlt⟩

theorem categoryLabels_injective {c c' : Category}
    (h : labelText (categoryLabels c) = labelText (categoryLabels c')) : c = c' := by
  have hlabels := labelText_injective (List.cons_ne_nil _ _) (List.cons_ne_nil _ _)
    (fun _ => isName_of_mem_categoryLabels) (fun _ => isName_of_mem_categoryLabels) h
  cases c
  cases c'
  simpa [categoryLabels] using hlabels

/-- In every state, whatever workers call their categories, the metrics are read as they were meant,
and no category can be mistaken for another or for a line of its own. -/
theorem faithful_text (x : Exchange) : Faithful x where
  samples := (shows_lines x).read_join
  increasing := increasing_byCategory x.catalog
  counted _ _ := Catalog.mem_byCategory
  total := by rw [Catalog.sum_byCategory, Catalog.size_seen]
  undone v rest := by rw [toList_escapeLabel, readQuoted_escape]
  unbroken := newline_notMem_escapeLabel
  quotes v _ _ h := backslashes_of_quote (toList_escapeLabel v ▸ h)
  distinct _ _ := categoryLabels_injective

/-- A line end in a version would leave such a line behind, which is no sample. -/
example : (readLine ['x', '"', '\x7d', ' ', '1']).isNone = true := by decide

end TaskExchange.Metrics
