import Mathlib.Data.List.Sort
import Mathlib.Data.List.Triplewise
import Mathlib.Data.Rat.Floor

/-!
# The metrics page

The sink of the telemetry keeps a list of series, in the order in which they were first recorded, and
prints them one after the other.  A series is a name with labels, and it can be a counter, a gauge
and a histogram at once.  The format of the page asks for more than that: one line with the type of a
metric, before its samples, and all samples of a name together.
-/

namespace MuduoChat

namespace Telemetry

structure Label where
  key : String
  value : String
  deriving DecidableEq

def kMaxSeries : ℕ := 64

def kMaxPrometheusHistogramSamples : ℕ := 4096

def isLabelKeyAllowed (key : String) : Bool :=
  key ∈ ["delivery_state", "accept_outcome", "error_class", "legacy"]

def isLabelValueAllowed (key value : String) : Bool :=
  match key with
  | "delivery_state" => value ∈ ["pending", "inflight", "acknowledged", "expired"]
  | "accept_outcome" => value ∈ ["accepted", "duplicate", "conflict", "too_many_recipients"]
  | "error_class" => value ∈ ["timeout", "unavailable", "rejected"]
  | "legacy" => value ∈ ["true", "false"]
  | _ => false

/-! ### Recording -/

structure SeriesState where
  name : String
  labels : List Label
  counterTotal : ℕ := 0
  gaugeLast : ℤ := 0
  hasCounter : Bool := false
  hasGauge : Bool := false
  hasHistogram : Bool := false
  histogramSamplesMs : List ℕ := []
  deriving DecidableEq

structure PrometheusTelemetrySink where
  series : List SeriesState := []
  rejectedLabels : ℕ := 0
  rejectedSeries : ℕ := 0
  deriving DecidableEq

/-- The key of a series: its name, and its labels in order. -/
def seriesKey (name : String) (labels : List Label) : String :=
  let sorted := labels.insertionSort fun a b =>
    a.key < b.key ∨ a.key = b.key ∧ a.value ≤ b.value
  name ++ String.join (sorted.map fun l => "\x1f" ++ l.key ++ "\x1e" ++ l.value)

def requireLabelsAllowed : List Label → Except String Unit
  | [] => .ok ()
  | l :: labels =>
    if !isLabelKeyAllowed l.key then
      .error ("label key '" ++ l.key ++ "' is not in the low-cardinality whitelist")
    else if !isLabelValueAllowed l.key l.value then
      .error ("label value '" ++ l.value ++ "' not allowed for key '" ++ l.key ++ "'")
    else requireLabelsAllowed labels

namespace PrometheusTelemetrySink

/-- Find a series, or make it, and change it. -/
def record (s : PrometheusTelemetrySink) (name : String) (labels : List Label)
    (change : SeriesState → SeriesState) : PrometheusTelemetrySink × Except String Unit :=
  match requireLabelsAllowed labels with
  | .error e => ({ s with rejectedLabels := s.rejectedLabels + 1 }, .error e)
  | .ok () =>
    match s.series.findIdx? fun st => seriesKey st.name st.labels = seriesKey name labels with
    | some i => ({ s with series := s.series.modify i change }, .ok ())
    | none =>
      if s.series.length ≥ kMaxSeries then
        ({ s with rejectedSeries := s.rejectedSeries + 1 }, .error "series budget exceeded")
      else ({ s with series := s.series ++ [change { name, labels }] }, .ok ())

def addCounter (s : PrometheusTelemetrySink) (name : String) (delta : ℕ) (labels : List Label) :
    PrometheusTelemetrySink × Except String Unit :=
  s.record name labels fun st =>
    { st with counterTotal := (st.counterTotal + delta) % 2 ^ 64, hasCounter := true }

def setGauge (s : PrometheusTelemetrySink) (name : String) (value : ℤ) (labels : List Label) :
    PrometheusTelemetrySink × Except String Unit :=
  s.record name labels fun st => { st with gaugeLast := value, hasGauge := true }

def recordHistogramSample (s : PrometheusTelemetrySink) (name : String) (valueMs : ℕ)
    (labels : List Label) : PrometheusTelemetrySink × Except String Unit :=
  s.record name labels fun st =>
    let samples := st.histogramSamplesMs
    let kept := if samples.length ≥ kMaxPrometheusHistogramSamples then samples.drop 1 else samples
    { st with histogramSamplesMs := kept ++ [valueMs], hasHistogram := true }

/-- The beginning of a span, as far as the series are concerned. -/
def beginSpan (s : PrometheusTelemetrySink) (name : String) (labels : List Label) :
    PrometheusTelemetrySink × Except String Unit :=
  s.record name labels id

end PrometheusTelemetrySink

/-! ### The page -/

inductive Line where
  | type (name kind : String)
  | help (name : String)
  | sample (name labels value : String)
  deriving DecidableEq

namespace Line

def text : Line → String
  | type name kind => "# TYPE " ++ name ++ " " ++ kind ++ "\n"
  | help name => "# HELP " ++ name ++ " \n"
  | sample name labels value => name ++ labels ++ " " ++ value ++ "\n"

def typeName : Line → Option String
  | type name _ => some name
  | _ => none

def sampleName : Line → Option String
  | sample name _ _ => some name
  | _ => none

end Line

def escapeLabelValue (s : String) : String :=
  String.ofList (s.toList.flatMap fun c =>
    if c = '\\' then ['\\', '\\'] else if c = '"' then ['\\', '"'] else [c])

/-- The labels behind the name of a sample. -/
def renderLabels (labels : List Label) : String :=
  if labels.isEmpty then ""
  else "\x7b" ++ ",".intercalate (labels.map fun l =>
    l.key ++ "=\"" ++ escapeLabelValue l.value ++ "\"") ++ "\x7d"

def nearestRank (sorted : List ℕ) (p : ℚ) : ℕ :=
  sorted.getD (⌈p * sorted.length⌉.toNat - 1) 0

/-- What is printed of a series for one kind: the samples have the name with some ending. -/
structure Metric where
  name : String
  kind : String
  labels : String
  samples : List (String × String)
  deriving DecidableEq

namespace Metric

def lines (m : Metric) : List Line :=
  .type m.name m.kind :: .help m.name :: m.samples.map fun s => .sample (m.name ++ s.1) m.labels s.2

def sampleNames (m : Metric) : List String := m.samples.map fun s => m.name ++ s.1

end Metric

def SeriesState.metrics (st : SeriesState) : List Metric :=
  let sorted := st.histogramSamplesMs.insertionSort (· ≤ ·)
  let metric (kind : String) (samples : List (String × String)) : Metric :=
    ⟨st.name, kind, renderLabels st.labels, samples⟩
  (if st.hasCounter then [metric "counter" [("", toString st.counterTotal)]] else []) ++
    (if st.hasGauge then [metric "gauge" [("", toString st.gaugeLast)]] else []) ++
    (if st.hasHistogram then
      [metric "histogram" [("_samples", toString sorted.length),
        ("_p50_ms", toString (nearestRank sorted (50 / 100))),
        ("_p95_ms", toString (nearestRank sorted (95 / 100))),
        ("_p99_ms", toString (nearestRank sorted (99 / 100)))]]
    else [])

/-- The lines for some metrics, and the two lines at the end. -/
def page (ms : List Metric) (rejectedLabels rejectedSeries : ℕ) : List Line :=
  ms.flatMap Metric.lines ++
    [.sample "rejected_labels" "" (toString rejectedLabels),
      .sample "rejected_series" "" (toString rejectedSeries)]

namespace PrometheusTelemetrySink

def metrics (s : PrometheusTelemetrySink) : List Metric := s.series.flatMap SeriesState.metrics

def lines (s : PrometheusTelemetrySink) : List Line :=
  page s.metrics s.rejectedLabels s.rejectedSeries

/-- The text of the page.  What is said of the page below is said of the lines that are printed here,
so a name with a line feed counts as the one name that was recorded. -/
def render (s : PrometheusTelemetrySink) : String := String.join (s.lines.map Line.text)

end PrometheusTelemetrySink

/-- Between two samples of a name, there are only samples of the name. -/
def Between (l x l' : Line) : Prop :=
  ∀ n, l.sampleName = some n → l'.sampleName = some n → x.sampleName = some n

/-- What the format of the page asks for. -/
structure WellFormed (lines : List Line) : Prop where
  /-- At most one line has the type of a name. -/
  types : lines.Pairwise fun l l' => ∀ n, l.typeName = some n → l'.typeName ≠ some n
  /-- No sample of a name stands before the line with its type. -/
  order : lines.Pairwise fun l l' => ∀ n, l.sampleName = some n → l'.typeName ≠ some n
  /-- The samples of a name stand together. -/
  together : lines.Triplewise Between

/-- The recorded metrics do not get in each other's way. -/
structure Apart (ms : List Metric) : Prop where
  names : ms.Pairwise fun m m' => m.name ≠ m'.name
  order : ms.Pairwise fun m m' => m'.name ∉ m.sampleNames
  samples : ms.Pairwise fun m m' => m.sampleNames.Disjoint m'.sampleNames
  rejectedSeries : ∀ m ∈ ms, "rejected_series" ∉ m.sampleNames
  rejectedLabels : ∀ m ∈ ms.dropLast, "rejected_labels" ∉ m.sampleNames

/-! ### When the page is well formed -/

section Page

variable {ms : List Metric} {m : Metric} {l : Line} {n : String} {a b : ℕ}

lemma typeName_of_mem (hl : l ∈ m.lines.tail) : l.typeName = none := by
  simp only [Metric.lines, List.tail_cons, List.mem_cons, List.mem_map] at hl
  rcases hl with rfl | ⟨_, -, rfl⟩ <;> rfl

lemma eq_name_of_typeName (hl : l ∈ m.lines) (h : l.typeName = some n) : m.name = n := by
  rcases List.mem_cons.1 hl with rfl | hl
  · exact Option.some.inj h
  · rw [typeName_of_mem hl] at h
    cases h

lemma mem_sampleNames_iff : n ∈ m.sampleNames ↔ ∃ l ∈ m.lines, l.sampleName = some n := by
  simp [Metric.lines, Metric.sampleNames, Line.sampleName]

lemma pairwise_page_iff (f : Line → Option String) :
    (page ms a b).Pairwise (fun l l' => ∀ n, f l = some n → l'.typeName ≠ some n) ↔
      ms.Pairwise fun m m' => ∀ l ∈ m.lines, f l ≠ some m'.name := by
  have hend : ∀ l ∈ [Line.sample "rejected_labels" "" (toString a),
      .sample "rejected_series" "" (toString b)], l.typeName = none := by simp [Line.typeName]
  rw [page, List.pairwise_append, List.pairwise_flatMap]
  constructor
  · rintro ⟨⟨-, h⟩, -⟩
    exact h.imp fun hm l hl heq => hm l hl _ List.mem_cons_self _ heq rfl
  · intro h
    refine ⟨⟨fun m _ => List.pairwise_cons.2 ⟨fun l hl n _ => ?_, ?_⟩, h.imp ?_⟩, ?_, ?_⟩
    · rw [typeName_of_mem hl]
      simp
    · refine List.pairwise_of_forall_mem_list fun l _ l' hl' n _ => ?_
      rw [typeName_of_mem hl']
      simp
    · intro m m' hm l hl l' hl' n hn htype
      exact hm l hl (hn.trans (congrArg some (eq_name_of_typeName hl' htype).symm))
    · refine List.pairwise_of_forall_mem_list fun l _ l' hl' n _ => ?_
      rw [hend l' hl']
      simp
    · intro l _ l' hl' n _
      rw [hend l' hl']
      simp

/-- The samples of a counter or a gauge, or of a histogram. -/
def Metric.Printed (m : Metric) : Prop :=
  m.samples.map Prod.fst = [""] ∨
    m.samples.map Prod.fst = ["_samples", "_p50_ms", "_p95_ms", "_p99_ms"]

/-- The two lines are not samples of the same name. -/
def Differ (l l' : Line) : Prop := ∀ n, l.sampleName = some n → l'.sampleName ≠ some n

lemma Differ.between {l x l' : Line} (h : Differ l l') : Between l x l' :=
  fun n hl hl' => absurd hl' (h n hl)

lemma triplewise_between {ls : List Line} (h : ls.Pairwise Differ) : ls.Triplewise Between := by
  induction h with
  | nil => exact .nil
  | cons hl _ ih =>
    exact List.triplewise_cons.2 ⟨List.pairwise_of_forall_mem_list fun _ _ l' hl' =>
      (hl l' hl').between, ih⟩

lemma Metric.Printed.lines_differ (h : m.Printed) : m.lines.Pairwise Differ := by
  have hdistinct : (m.samples.map Prod.fst).Nodup := by
    rcases h with h | h <;> rw [h] <;> decide
  refine List.pairwise_cons.2 ⟨fun _ _ _ h => (by cases h), List.pairwise_cons.2
    ⟨fun _ _ _ h => (by cases h), List.pairwise_map.2 ((List.pairwise_map.1 hdistinct).imp ?_)⟩⟩
  intro s t hst n hs ht
  cases hs
  exact hst (by simpa using (Option.some.inj ht).symm)

lemma Metric.Printed.rejected_labels (h : m.Printed) (hm : "rejected_labels" ∈ m.sampleNames) :
    m.lines.Pairwise fun l _ => l.sampleName = none := by
  rcases h with h | h
  · obtain ⟨s, hs, -⟩ := List.map_eq_singleton_iff.1 h
    simp [Metric.lines, hs, Line.sampleName]
  · obtain ⟨s, hs, hname⟩ := List.mem_map.1 hm
    have hend := List.mem_map_of_mem (f := Prod.fst) hs
    have htwo := congrArg (fun s : String => s.toList.reverse.take 2) hname
    simp only [h, List.mem_cons, List.not_mem_nil, or_false] at hend
    simp only [String.toList_append, List.reverse_append] at htwo
    rcases hend with hend | hend | hend | hend <;> rw [hend] at htwo <;> simp at htwo

lemma sampleName_page_iff : (∃ l ∈ page ms a b, l.sampleName = some n) ↔
    (∃ m ∈ ms, n ∈ m.sampleNames) ∨ n = "rejected_labels" ∨ n = "rejected_series" := by
  simp only [page, List.mem_append, List.mem_flatMap, List.mem_cons, List.not_mem_nil, or_false,
    or_and_right, exists_or, exists_eq_left, Line.sampleName, Option.some.injEq,
    mem_sampleNames_iff, eq_comm (b := n)]
  refine or_congr_left ⟨?_, ?_⟩
  · rintro ⟨l, ⟨m, hm, hl⟩, hn⟩
    exact ⟨m, hm, l, hl, hn⟩
  · rintro ⟨m, hm, l, hl, hn⟩
    exact ⟨l, ⟨m, hm, hl⟩, hn⟩

lemma differ_page_iff : (∀ l ∈ m.lines, ∀ l' ∈ page ms a b, Differ l l') ↔
    (∀ m' ∈ ms, m.sampleNames.Disjoint m'.sampleNames) ∧ "rejected_labels" ∉ m.sampleNames ∧
      "rejected_series" ∉ m.sampleNames := by
  have hnames : (∀ l ∈ m.lines, ∀ l' ∈ page ms a b, Differ l l') ↔
      ∀ n, n ∈ m.sampleNames → ¬∃ l ∈ page ms a b, l.sampleName = some n := by
    constructor
    · rintro h n hn ⟨l', hl', hn'⟩
      obtain ⟨l, hl, hn⟩ := mem_sampleNames_iff.1 hn
      exact h l hl l' hl' n hn hn'
    · exact fun h l hl l' hl' n hn hn' => h n (mem_sampleNames_iff.2 ⟨l, hl, hn⟩) ⟨l', hl', hn'⟩
  rw [hnames]
  simp only [sampleName_page_iff, List.Disjoint]
  grind

lemma between_page_iff {m' : Metric} :
    ((∀ l ∈ m.lines, (page (m' :: ms) a b).Pairwise (Between l)) ∧
      ∀ l' ∈ page (m' :: ms) a b, m.lines.Pairwise fun l x => Between l x l') ↔
      ∀ l ∈ m.lines, ∀ l' ∈ page (m' :: ms) a b, Differ l l' := by
  constructor
  · rintro ⟨h, -⟩ l hl l' hl' n hn hn'
    have htype := (List.pairwise_cons.1 (h l hl)).1
    rcases List.mem_cons.1 hl' with rfl | hl'
    · cases hn'
    · cases htype l' hl' n hn hn'
  · intro h
    exact ⟨fun l hl => List.pairwise_of_forall_mem_list fun _ _ l' hl' =>
        (h l hl l' hl').between,
      fun l' hl' => List.pairwise_of_forall_mem_list fun l hl _ _ => (h l hl l' hl').between⟩

lemma Metric.Printed.between_end_iff (hm : m.Printed) :
    ((∀ l ∈ m.lines, (page [] a b).Pairwise (Between l)) ∧
      ∀ l' ∈ page [] a b, m.lines.Pairwise fun l x => Between l x l') ↔
      "rejected_series" ∉ m.sampleNames := by
  constructor
  · rintro ⟨hnext, -⟩ hmem
    obtain ⟨l, hl, hn⟩ := mem_sampleNames_iff.1 hmem
    exact absurd (List.pairwise_pair.1 (hnext l hl) _ hn rfl) (by simp [Line.sampleName])
  · intro hseries
    have hs (l) (hl : l ∈ m.lines) : l.sampleName ≠ some "rejected_series" :=
      fun hn => hseries (mem_sampleNames_iff.2 ⟨l, hl, hn⟩)
    refine ⟨fun l hl => List.pairwise_pair.2 fun n hn hn' => ?_,
      List.forall_mem_cons.2 ⟨?_, List.forall_mem_singleton.2 ?_⟩⟩
    · cases hn'
      exact absurd hn (hs l hl)
    · by_cases hmem : "rejected_labels" ∈ m.sampleNames
      · refine (hm.rejected_labels hmem).imp fun hnone n hn => ?_
        rw [hnone] at hn
        cases hn
      · refine List.pairwise_of_forall_mem_list fun l hl _ _ n hn hn' => ?_
        cases hn'
        exact absurd (mem_sampleNames_iff.2 ⟨l, hl, hn⟩) hmem
    · refine List.pairwise_of_forall_mem_list fun l hl _ _ n hn hn' => ?_
      cases hn'
      exact absurd hn (hs l hl)

/-- Samples stand together exactly if metrics share no names. -/
lemma together_iff (hms : ∀ m ∈ ms, m.Printed) :
    (page ms a b).Triplewise Between ↔
      ms.Pairwise (fun m m' => m.sampleNames.Disjoint m'.sampleNames) ∧
        (∀ m ∈ ms, "rejected_series" ∉ m.sampleNames) ∧
          ∀ m ∈ ms.dropLast, "rejected_labels" ∉ m.sampleNames := by
  induction ms with
  | nil => simp [page]
  | cons m ms ih =>
    have hm := hms m List.mem_cons_self
    have hself := triplewise_between hm.lines_differ
    have hpage : page (m :: ms) a b = m.lines ++ page ms a b := by simp [page]
    rw [hpage, List.triplewise_append, ih fun m' hm' => hms m' (List.mem_cons_of_mem _ hm')]
    cases ms with
    | nil =>
      rw [hm.between_end_iff]
      simp [hself]
    | cons m' ms =>
      rw [between_page_iff, differ_page_iff, List.dropLast_cons_cons]
      constructor
      · rintro ⟨-, ⟨hpairs, hseries, hlabels⟩, hapart, hl, hs⟩
        exact ⟨List.Pairwise.cons hapart hpairs, List.forall_mem_cons.2 ⟨hs, hseries⟩,
          List.forall_mem_cons.2 ⟨hl, hlabels⟩⟩
      · rintro ⟨hpairs, hseries, hlabels⟩
        obtain ⟨hapart, hpairs⟩ := List.pairwise_cons.1 hpairs
        obtain ⟨hs, hseries⟩ := List.forall_mem_cons.1 hseries
        obtain ⟨hl, hlabels⟩ := List.forall_mem_cons.1 hlabels
        exact ⟨hself, ⟨hpairs, hseries, hlabels⟩, hapart, hl, hs⟩

end Page

lemma SeriesState.printed (st : SeriesState) : ∀ m ∈ st.metrics, m.Printed := by
  intro m hm
  have hsingle {c : Bool} {x : Metric} (h : m ∈ if c then [x] else []) : m = x := by
    cases c
    · cases h
    · exact List.mem_singleton.1 h
  rcases List.mem_append.1 hm with hm | hm
  · rcases List.mem_append.1 hm with hm | hm
    · exact .inl (hsingle hm ▸ rfl)
    · exact .inl (hsingle hm ▸ rfl)
  · exact .inr (hsingle hm ▸ rfl)

/-- **The metrics page.**  Whatever has been recorded, the page is well formed exactly if the metrics
do not get in each other's way. -/
theorem page_wellFormed_iff (s : PrometheusTelemetrySink) :
    WellFormed s.lines ↔ Apart s.metrics := by
  have hprinted : ∀ m ∈ s.metrics, m.Printed := by
    intro m hm
    obtain ⟨st, -, hm⟩ := List.mem_flatMap.1 hm
    exact st.printed m hm
  have htypes : (∀ m m' : Metric, (∀ l ∈ m.lines, l.typeName ≠ some m'.name) ↔
      m.name ≠ m'.name) := by
    intro m m'
    refine ⟨fun h => ?_, fun h l hl hl' => h (eq_name_of_typeName hl hl')⟩
    exact fun heq => h _ List.mem_cons_self (congrArg some heq)
  have horder : (∀ m m' : Metric, (∀ l ∈ m.lines, l.sampleName ≠ some m'.name) ↔
      m'.name ∉ m.sampleNames) := by
    intro m m'
    rw [mem_sampleNames_iff, not_exists]
    exact forall_congr' fun l => not_and.symm
  constructor
  · rintro ⟨h1, h2, h3⟩
    obtain ⟨hsamples, hseries, hlabels⟩ := (together_iff hprinted).1 h3
    exact ⟨((pairwise_page_iff _).1 h1).imp (htypes _ _).1,
      ((pairwise_page_iff _).1 h2).imp (horder _ _).1, hsamples, hseries, hlabels⟩
  · rintro ⟨h1, h2, h3, h4, h5⟩
    exact ⟨(pairwise_page_iff _).2 (h1.imp (htypes _ _).2),
      (pairwise_page_iff _).2 (h2.imp (horder _ _).2), (together_iff hprinted).2 ⟨h3, h4, h5⟩⟩

/-- A counter is recorded without labels and with a label. -/
theorem page_two_types :
    ¬WellFormed ((((({} : PrometheusTelemetrySink).addCounter "accepted" 1 []).1.addCounter
      "accepted" 1 [⟨"legacy", "true"⟩]).1).lines) := by
  intro h
  have hnames := (pairwise_page_iff _).1 h.types
  have hmetrics : (((({} : PrometheusTelemetrySink).addCounter "accepted" 1 []).1.addCounter
      "accepted" 1 [⟨"legacy", "true"⟩]).1).metrics =
      [⟨"accepted", "counter", "", [("", "1")]⟩,
        ⟨"accepted", "counter", "\x7blegacy=\"true\"\x7d", [("", "1")]⟩] := by decide
  rw [hmetrics] at hnames
  exact List.pairwise_pair.1 hnames _ List.mem_cons_self rfl

end Telemetry

end MuduoChat
