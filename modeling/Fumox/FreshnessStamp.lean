import Fumox.SourceStore
import Fumox.TransitionRuns

/-!
Edits of one source row interleaved with its queued and running ingests, step by step, with every
read and write free to fail; the runs in which the freshness stamp tells the truth.
-/

namespace FreshnessStamp

open RustText ConfigModels SourceStore TransitionRuns

/-- A row that an edit is about to write. `revision` is that of the row when the form read it, and
`overtaken` says whether an ingest has recorded its outcome since. -/
structure Draft where
  source : Source
  revision : ℕ
  overtaken : Bool := false

inductive Edit where
  | idle
  | built (draft : Draft)
  | compared (draft : Draft) (lastFetchedAt : Option ℤ)

structure Flight where
  snapshot : Source
  now : ℤ
  reconciled : Bool := false

/-- `linkedUnder` keeps the settings of the payload that the linked rows were last reconciled from,
`revision` counts the changes of the settings of the row. -/
structure World where
  row : Source
  linkedUnder : Option FetchSettings
  revision : ℕ
  edits : ℕ → Edit
  queued : ℕ → Option Source
  flight : Option Flight

inductive Event where
  | build (edit : ℕ) (fields : Source) (now : ℤ) (readFails : Bool)
  | compare (edit : ℕ) (readFails : Bool)
  | write (edit : ℕ) (applied : Bool)
  | load (task : ℕ)
  | start (task : ℕ) (now : ℤ) (force : Bool)
  | fail (error : Text) (errorClass : ErrorClass) (stored : Bool)
  | reconcile
  | stamp (stored : Bool)

namespace Edit

def draft : Edit → Option Draft
  | idle => none
  | built draft => some draft
  | compared draft _ => some draft

def overtake : Edit → Edit
  | idle => idle
  | built draft => built { draft with overtaken := true }
  | compared draft lastFetchedAt => compared { draft with overtaken := true } lastFetchedAt

end Edit

namespace World

def setEdit (w : World) (edit : ℕ) (state : Edit) : World :=
  { w with edits := fun i => if i = edit then state else w.edits i }

def setQueued (w : World) (task : ℕ) (snapshot : Option Source) : World :=
  { w with queued := fun i => if i = task then snapshot else w.queued i }

def update (w : World) (source : Source) (lastFetchedAt : Option ℤ) : World :=
  { w with row := updateRow w.row source lastFetchedAt
           revision := if fetchSettings w.row = fetchSettings source then w.revision
             else w.revision + 1 }

/-- `record_fetch_outcome`, of which a failure is only logged. -/
def record (w : World) (outcome : FetchOutcome) (stored : Bool) : World :=
  if stored then
    { w with row := recordFetchOutcome w.row outcome, edits := fun i => (w.edits i).overtake }
  else w

end World

def Enabled (w : World) : Event → Prop
  | .build edit .. => (w.edits edit).draft.isNone = true
  | .compare edit _ =>
    match w.edits edit with
    | .built _ => True
    | _ => False
  | .write edit _ =>
    match w.edits edit with
    | .compared .. => True
    | _ => False
  | .load task => w.queued task = none
  | .start task .. => (w.queued task).isSome = true ∧ w.flight.isNone = true
  | .fail .. => ∃ flight, w.flight = some flight ∧ flight.reconciled = false
  | .reconcile => ∃ flight, w.flight = some flight ∧ flight.reconciled = false
  | .stamp _ => ∃ flight, w.flight = some flight ∧ flight.reconciled = true

def next (w : World) : Event → World
  | .build edit fields now readFails =>
    let existing := if readFails then none else some w.row
    w.setEdit edit (.built ⟨buildSourceFromForm fields w.row.id existing now, w.revision, false⟩)
  | .compare edit readFails =>
    match w.edits edit with
    | .built draft =>
      w.setEdit edit
        (if readFails then .idle else .compared draft (stampOf (some w.row) draft.source))
    | _ => w
  | .write edit applied =>
    match w.edits edit with
    | .compared draft lastFetchedAt =>
      let w' := if applied then w.update draft.source lastFetchedAt else w
      w'.setEdit edit .idle
    | _ => w
  | .load task => w.setQueued task (some w.row)
  | .start task now force =>
    match w.queued task with
    | some snapshot =>
      let w' := w.setQueued task none
      if !force && isFresh snapshot now then w' else { w' with flight := some ⟨snapshot, now, false⟩ }
    | none => w
  | .fail error errorClass stored =>
    { w.record (.failure error errorClass) stored with flight := none }
  | .reconcile =>
    match w.flight with
    | some flight =>
      { w with linkedUnder := some (fetchSettings flight.snapshot)
               flight := some { flight with reconciled := true } }
    | none => w
  | .stamp stored =>
    match w.flight with
    | some flight => { w.record (.success flight.now) stored with flight := none }
    | none => w

def Honest (w : World) : Prop :=
  w.row.lastFetchedAt ≠ none → w.linkedUnder = some (fetchSettings w.row)

def Overwrites (w : World) (edit : ℕ) : Prop :=
  (∃ draft ∈ (w.edits edit).draft, draft.overtaken = true) ∧
    recorded (next w (.write edit true)).row ≠ recorded w.row

def Initial (w : World) : Prop :=
  Honest w ∧ (∀ i, w.edits i = .idle) ∧ (∀ i, w.queued i = none) ∧ w.flight = none

def refreshes : System World Event := ⟨Initial, Enabled, next⟩

/-- The steps that keep the stamp honest. An ingest reconciles and stamps while the row has the
settings that it was loaded with. An edit that carries a stamp on writes it while no other edit has
changed the settings, and one that was overtaken has read what is in the row and resets nothing. -/
def Careful (w : World) : Event → Prop
  | .reconcile => ∀ flight ∈ w.flight, fetchSettings flight.snapshot = fetchSettings w.row
  | .stamp _ => ∀ flight ∈ w.flight, fetchSettings flight.snapshot = fetchSettings w.row
  | .write edit _ =>
    match w.edits edit with
    | .compared draft lastFetchedAt =>
      (lastFetchedAt ≠ none → draft.revision = w.revision) ∧
        (draft.overtaken = true →
          recorded draft.source = recorded w.row ∧ lastFetchedAt = draft.source.lastFetchedAt)
    | _ => True
  | _ => True

/-- What an open edit may count on as long as no settings have changed since its form read the
row. -/
structure DraftSound (w : World) (draft : Draft) : Prop where
  revision : draft.revision ≤ w.revision
  linked : draft.source.lastFetchedAt ≠ none → draft.revision = w.revision →
    w.linkedUnder = some (fetchSettings w.row)

def EditSound (w : World) : Edit → Prop
  | .idle => True
  | .built draft => DraftSound w draft
  | .compared draft lastFetchedAt => DraftSound w draft ∧
    (lastFetchedAt ≠ none → draft.source.lastFetchedAt ≠ none ∧
      (draft.revision = w.revision → fetchSettings w.row = fetchSettings draft.source))

structure Sound (w : World) : Prop where
  honest : Honest w
  edits : ∀ i, EditSound w (w.edits i)
  flight : ∀ flight ∈ w.flight, flight.reconciled = true →
    w.linkedUnder = some (fetchSettings flight.snapshot)

variable {w w' : World} {state : Edit} {draft : Draft} {source : Source} {stamp : Option ℤ}

/-- Open edits are left alone by what keeps the settings, the revision and the truth about the
linked rows. -/
theorem EditSound.keep (h : EditSound w state) (hrevision : w'.revision = w.revision)
    (hsettings : fetchSettings w'.row = fetchSettings w.row)
    (hlinked : w.linkedUnder = some (fetchSettings w.row) →
      w'.linkedUnder = some (fetchSettings w'.row)) : EditSound w' state := by
  have hdraft : ∀ {draft}, DraftSound w draft → DraftSound w' draft := by
    intro draft hd
    constructor
    · rw [hrevision]
      exact hd.revision
    · intro hstamp hsame
      exact hlinked (hd.linked hstamp (hrevision ▸ hsame))
  cases state with
  | idle => trivial
  | built draft => exact hdraft h
  | compared draft lastFetchedAt =>
    obtain ⟨hd, hcompared⟩ := h
    refine ⟨hdraft hd, ?_⟩
    intro hstamp
    obtain ⟨hcarried, hsource⟩ := hcompared hstamp
    refine ⟨hcarried, ?_⟩
    rw [hrevision, hsettings]
    exact hsource

theorem EditSound.overtake (h : EditSound w state) : EditSound w state.overtake := by
  cases state with
  | idle => trivial
  | built draft => exact ⟨h.revision, h.linked⟩
  | compared draft lastFetchedAt => exact ⟨⟨h.1.revision, h.1.linked⟩, h.2⟩

theorem EditSound.outdate (h : EditSound w state) (hrevision : w.revision < w'.revision) :
    EditSound w' state := by
  have hdraft : ∀ {draft}, DraftSound w draft → DraftSound w' draft := by
    intro draft hd
    have hle := hd.revision
    constructor
    · omega
    · intro _ hsame
      omega
  cases state with
  | idle => trivial
  | built draft => exact hdraft h
  | compared draft lastFetchedAt =>
    obtain ⟨hd, hcompared⟩ := h
    have hle := hd.revision
    refine ⟨hdraft hd, ?_⟩
    intro hstamp
    refine ⟨(hcompared hstamp).1, ?_⟩
    intro hsame
    omega

theorem Sound.setEdit (h : Sound w) {edit : ℕ} (hstate : EditSound w state) :
    Sound (w.setEdit edit state) := by
  constructor
  · exact h.honest
  · intro i
    have hkeep : ∀ {s}, EditSound w s → EditSound (w.setEdit edit state) s :=
      fun hs => hs.keep rfl rfl id
    by_cases hi : i = edit
    · have hsame : (w.setEdit edit state).edits i = state := if_pos hi
      rw [hsame]
      exact hkeep hstate
    · have hother : (w.setEdit edit state).edits i = w.edits i := if_neg hi
      rw [hother]
      exact hkeep (h.edits i)
  · exact h.flight

theorem Sound.record (h : Sound w) {outcome : FetchOutcome} {stored : Bool}
    (hstamp : (recordFetchOutcome w.row outcome).lastFetchedAt ≠ none →
      w.linkedUnder = some (fetchSettings w.row)) :
    Sound { w.record outcome stored with flight := none } := by
  cases stored with
  | false =>
    constructor
    · exact h.honest
    · exact fun i => (h.edits i).keep rfl rfl id
    · intro flight hflight
      cases hflight
  | true =>
    have hsettings : fetchSettings (recordFetchOutcome w.row outcome) = fetchSettings w.row :=
      fetchSettings_recordFetchOutcome
    constructor
    · intro hset
      exact (hstamp hset).trans (congrArg some hsettings.symm)
    · intro i
      refine (h.edits i).overtake.keep rfl hsettings ?_
      intro hlinked
      exact hlinked.trans (congrArg some hsettings.symm)
    · intro flight hflight
      cases hflight

theorem Sound.update (h : Sound w)
    (hcarried : stamp ≠ none → w.linkedUnder = some (fetchSettings w.row) ∧
      fetchSettings w.row = fetchSettings source) : Sound (w.update source stamp) := by
  constructor
  · intro hset
    obtain ⟨hlinked, hsame⟩ := hcarried hset
    rw [hsame] at hlinked
    exact hlinked
  · intro i
    by_cases hsame : fetchSettings w.row = fetchSettings source
    · apply (h.edits i).keep
      · exact if_pos hsame
      · exact hsame.symm
      · intro hlinked
        rw [hsame] at hlinked
        exact hlinked
    · apply (h.edits i).outdate
      have hnext : (w.update source stamp).revision = w.revision + 1 := if_neg hsame
      omega
  · exact h.flight

theorem Sound.init (h : Initial w) : Sound w := by
  obtain ⟨hhonest, hedits, -, hflight⟩ := h
  constructor
  · exact hhonest
  · intro i
    rw [hedits i]
    trivial
  · intro flight hmem
    rw [hflight] at hmem
    cases hmem

theorem Sound.step (h : Sound w) {e : Event} (henabled : Enabled w e) (hok : Careful w e) :
    Sound (next w e) := by
  cases e with
  | build edit fields now readFails =>
    apply h.setEdit
    constructor
    · exact le_rfl
    · intro hstamp _
      cases readFails with
      | true => exact absurd rfl hstamp
      | false => exact h.honest hstamp
  | compare edit readFails =>
    simp only [next]
    split
    next draft hedit =>
      have hdraft : DraftSound w draft := by
        have hsound := h.edits edit
        rw [hedit] at hsound
        exact hsound
      apply h.setEdit
      cases readFails with
      | true => trivial
      | false =>
        refine ⟨hdraft, ?_⟩
        intro hstamp
        by_cases hstale : fetchStampStale w.row draft.source = true
        · exact absurd (if_pos hstale) hstamp
        · have hkeeps : stampOf (some w.row) draft.source = draft.source.lastFetchedAt :=
            if_neg hstale
          refine ⟨hkeeps ▸ hstamp, ?_⟩
          intro _
          exact fetchSettings_eq (Bool.eq_false_of_not_eq_true hstale)
    · exact h
  | write edit applied =>
    simp only [next]
    split
    next draft lastFetchedAt hedit =>
      have hsound := h.edits edit
      simp only [Careful, hedit] at hok
      rw [hedit] at hsound
      obtain ⟨hdraft, hcompared⟩ := hsound
      cases applied with
      | false => exact h.setEdit trivial
      | true =>
        refine (h.update ?_).setEdit trivial
        intro hstamp
        obtain ⟨hcarried, hsource⟩ := hcompared hstamp
        have hrevision := hok.1 hstamp
        exact ⟨hdraft.linked hcarried hrevision, hsource hrevision⟩
    · exact h
  | load task => exact ⟨h.honest, fun i => (h.edits i).keep rfl rfl id, h.flight⟩
  | start task now force =>
    simp only [next]
    split
    next snapshot hqueued =>
      have hidle : Sound (w.setQueued task none) :=
        ⟨h.honest, fun i => (h.edits i).keep rfl rfl id, h.flight⟩
      split
      · exact hidle
      · refine ⟨hidle.honest, fun i => (hidle.edits i).keep rfl rfl id, ?_⟩
        intro flight hflight hreconciled
        obtain rfl := Option.some.inj hflight
        cases hreconciled
    · exact h
  | fail error errorClass stored => exact h.record h.honest
  | reconcile =>
    obtain ⟨flight, hflight, -⟩ := henabled
    have hsame := hok flight hflight
    simp only [next, hflight]
    constructor
    · intro _
      exact congrArg some hsame
    · intro i
      exact (h.edits i).keep rfl rfl fun _ => congrArg some hsame
    · intro f hf _
      obtain rfl := Option.some.inj hf
      rfl
  | stamp stored =>
    obtain ⟨flight, hflight, hreconciled⟩ := henabled
    have hsame := hok flight hflight
    have hlinked := h.flight flight hflight hreconciled
    simp only [next, hflight]
    apply h.record
    intro _
    exact hlinked.trans (congrArg some hsame)

/-- In every run of careful steps the stamp is honest, and no careful write of an edit takes an
outcome away that an ingest has recorded since the form of the edit read the row. -/
theorem freshness_stamp_honest (h : Reachable refreshes Careful w) :
    Honest w ∧ ∀ edit, Careful w (.write edit true) → ¬Overwrites w edit := by
  have hsound : Sound w :=
    h.invariant Sound (fun _ => Sound.init) fun _ _ hsound => hsound.step
  refine ⟨hsound.honest, ?_⟩
  rintro edit hok ⟨⟨draft, hdraft, hovertaken⟩, hchanged⟩
  apply hchanged
  cases hedit : w.edits edit with
  | idle => simp only [next, hedit]
  | built d => simp only [next, hedit]
  | compared d lastFetchedAt =>
    rw [hedit] at hdraft
    obtain rfl := Option.some.inj hdraft
    simp only [Careful, hedit] at hok
    obtain ⟨hread, hkeeps⟩ := hok.2 hovertaken
    simp only [next, hedit]
    rw [← hread, hkeeps]
    rfl

section Samples

def sampleSource : Source where
  id := "source"
  name := "feed"
  url := "https://example.com/a"

def renamed : Source := { sampleSource with name := "renamed" }

def moved : Source := { sampleSource with url := "https://example.com/b" }

def start : World := ⟨sampleSource, none, 0, fun _ => .idle, fun _ => none, none⟩

def after (events : List Event) : World := events.foldl next start

theorem start_reachable {Ok : World → Event → Prop} : Reachable refreshes Ok start := by
  apply Reachable.init
  refine ⟨?_, fun _ => rfl, fun _ => rfl, rfl⟩
  intro hset
  exact absurd rfl hset

def ingestThenRename : List Event :=
  [.load 0, .start 0 100 false, .reconcile, .stamp true, .build 0 renamed 200 false,
    .compare 0 false]

theorem ingestThenRename_reachable : Reachable refreshes Careful (after ingestThenRename) := by
  have hsnapshot : ∀ w : World, ∀ flight ∈ w.flight,
      w.flight.map (fetchSettings ·.snapshot) = some (fetchSettings w.row) →
        fetchSettings flight.snapshot = fetchSettings w.row := by
    intro w flight hflight h
    rw [Option.mem_def.mp hflight] at h
    exact Option.some.inj h
  apply start_reachable.execute
  refine ⟨rfl, trivial, ⟨rfl, rfl⟩, trivial, ⟨_, rfl, rfl⟩, ?_, ⟨_, rfl, rfl⟩, ?_, rfl, trivial,
    trivial, trivial, trivial⟩
  · exact fun flight hflight => hsnapshot _ flight hflight rfl
  · exact fun flight hflight => hsnapshot _ flight hflight rfl

theorem freshness_stamp_honest_sample :
    Honest (after ingestThenRename) ∧ ¬Overwrites (after ingestThenRename) 0 := by
  obtain ⟨hhonest, hkeeps⟩ := freshness_stamp_honest ingestThenRename_reachable
  refine ⟨hhonest, hkeeps 0 ⟨fun _ => rfl, ?_⟩⟩
  intro hovertaken
  exact absurd hovertaken Bool.false_ne_true

def movedUnderIngest : List Event :=
  [.load 0, .start 0 100 false, .build 0 moved 110 false, .compare 0 false, .write 0 true,
    .reconcile, .stamp true]

def failedUnderEdit : List Event :=
  [.build 0 renamed 100 false, .load 0, .start 0 110 false, .fail "timeout" .network true,
    .compare 0 false]

/-- The stamp of the ingest outlives the move, and the edit wipes the error of the ingest. -/
theorem stamp_and_error_are_lost :
    (∃ w, Reachable refreshes Any w ∧ ¬Honest w) ∧
      ∃ w edit, Reachable refreshes Any w ∧ Enabled w (.write edit true) ∧ Overwrites w edit := by
  constructor
  · refine ⟨after movedUnderIngest, ?_, ?_⟩
    · apply start_reachable.execute
      exact ⟨rfl, trivial, ⟨rfl, rfl⟩, trivial, rfl, trivial, trivial, trivial, trivial, trivial,
        ⟨_, rfl, rfl⟩, trivial, ⟨_, rfl, rfl⟩, trivial, trivial⟩
    · intro hhonest
      have hlinked := hhonest (by decide)
      exact absurd hlinked (by decide)
  · refine ⟨after failedUnderEdit, 0, ?_, trivial, ⟨_, rfl, rfl⟩, ?_⟩
    · apply start_reachable.execute
      exact ⟨rfl, trivial, rfl, trivial, ⟨rfl, rfl⟩, trivial, ⟨_, rfl, rfl⟩, trivial, trivial,
        trivial, trivial⟩
    · decide

end Samples

end FreshnessStamp
