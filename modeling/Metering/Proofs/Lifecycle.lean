import Metering.Proofs.DataEvents
import Metering.Proofs.OwnHistory

/-!
# Proofs: no event of a lifecycle is lost or logged twice

Where everything is wanted, every transition logs a message and right behind it the data, so the log
is a sequence of such pairs with reports in between. A meter logs one pair for every start and one
for every resolution, whoever asks for it, and no script loses a meter: each is dropped, which
resolves an operation that is still unresolved. So every meter logs the end of its operation, and
the last pair that does tells the outcome that the meter ends with.
-/

namespace Metering

/-! ## Pairs -/

/-- Whether messages and data come in pairs, each message right before the data of the same
transition and category. Reports may come between the pairs. -/
inductive Paired : List Event → Prop where
  /-- There are no events. -/
  | nil : Paired []
  /-- A report comes first. -/
  | report {e : Event} {es : List Event} (he : e.marker.isDiagnostic = true) (h : Paired es) :
    Paired (e :: es)
  /-- A pair comes first. -/
  | pair {t : Transition} {message data : Event} {es : List Event}
    (hmessage : message.marker = .message t) (hdata : data.marker = .data t)
    (hcategory : message.category = data.category) (h : Paired es) :
    Paired (message :: data :: es)

theorem Paired.append {es es' : List Event} (h : Paired es) (h' : Paired es') :
    Paired (es ++ es') := by
  induction h with
  | nil => exact h'
  | report he _ ih => exact .report he ih
  | pair hmessage hdata hcategory _ ih => exact .pair hmessage hdata hcategory ih

theorem paired_of_allReports {es : List Event} (h : Focus.AllReports es) : Paired es := by
  induction es with
  | nil => exact .nil
  | cons e es ih =>
    obtain ⟨he, hes⟩ := List.forall_mem_cons.mp h
    exact .report he (ih hes)

/-- Whether an event carries the data of a transition of some kind. -/
def Event.isDataOf (p : Transition → Bool) (e : Event) : Bool :=
  match e.marker with
  | .data t => p t
  | _ => false

/-- Whether an event is the readable message of a transition of some kind. -/
def Event.isMessageOf (p : Transition → Bool) (e : Event) : Bool :=
  match e.marker with
  | .message t => p t
  | _ => false

theorem Paired.countP_messages {es : List Event} (h : Paired es) (p : Transition → Bool) :
    es.countP (Event.isMessageOf p) = es.countP (Event.isDataOf p) := by
  induction h with
  | nil => rfl
  | @report e es he _ ih =>
    have hmessage : Event.isMessageOf p e = false := by
      unfold Event.isMessageOf
      split
      · next hmarker => rw [hmarker] at he; cases he
      · rfl
    have hdata : Event.isDataOf p e = false := by
      unfold Event.isDataOf
      split
      · next hmarker => rw [hmarker] at he; cases he
      · rfl
    rw [List.countP_cons_of_neg (by simp [hmessage]), List.countP_cons_of_neg (by simp [hdata]), ih]
  | pair hmessage hdata _ _ ih =>
    simp [List.countP_cons, Event.isMessageOf, Event.isDataOf, hmessage, hdata, ih]

/-- Whether an event carries data with an outcome, written with the affixes of a configuration. -/
def Event.Tells (e : Event) (config : Config) (outcome : Outcome) : Prop :=
  ∃ payload s, e.message = config.dataAffixes.wrap payload ∧ Snapshot.decode payload = .ok s ∧
    s.outcome = outcome

/-- Whether the last event with the data of a terminal transition tells an outcome. -/
def LastTells (es : List Event) (config : Config) (outcome : Outcome) : Prop :=
  ∃ front e back, es = front ++ e :: back ∧ e.isDataOf Transition.isTerminal = true ∧
    (∀ e' ∈ back, e'.isDataOf Transition.isTerminal = false) ∧ e.Tells config outcome

theorem LastTells.append_left {es : List Event} {config : Config} {outcome : Outcome}
    (h : LastTells es config outcome) (es' : List Event) :
    LastTells (es' ++ es) config outcome := by
  obtain ⟨front, e, back, rfl, hrest⟩ := h
  exact ⟨es' ++ front, e, back, (List.append_assoc _ _ _).symm, hrest⟩

theorem LastTells.append_right {es es' : List Event} {config : Config} {outcome : Outcome}
    (h : LastTells es config outcome)
    (hes' : es'.countP (Event.isDataOf Transition.isTerminal) = 0) :
    LastTells (es ++ es') config outcome := by
  obtain ⟨front, e, back, rfl, hterminal, hback, htells⟩ := h
  refine ⟨front, e, back ++ es', by simp, hterminal, ?_, htells⟩
  intro e' he'
  rcases List.mem_append.mp he' with he' | he'
  · exact hback e' he'
  · exact Bool.eq_false_iff.mpr (List.countP_eq_zero.mp hes' e' he')

namespace Focus

variable {around : Surroundings} {p : Transition → Bool}

theorem loggedEvents_of_wanted (henabled : ∀ level category, around.enabled level category = true)
    (hprint : around.config.printStatus = true) (t : Transition) (s : Snapshot) :
    loggedEvents around (some t) s = [messageEvent around t s, dataEvent around t s] := by
  simp [loggedEvents, transitionEvents, wantsMessage, wantsData, henabled, hprint]

theorem paired_loggedEvents (henabled : ∀ level category, around.enabled level category = true)
    (hprint : around.config.printStatus = true) (t : Option Transition) (s : Snapshot) :
    Paired (loggedEvents around t s) := by
  cases t with
  | none => exact .nil
  | some t =>
    rw [loggedEvents_of_wanted henabled hprint]
    exact .pair rfl rfl rfl .nil

theorem lastTells_loggedEvents
    (henabled : ∀ level category, around.enabled level category = true)
    (hprint : around.config.printStatus = true) {t : Transition} (ht : t.isTerminal = true)
    {m : Meter} (hm : m.IsCoherent) :
    LastTells (loggedEvents around (some t) m.snapshot) around.config m.snapshot.outcome := by
  obtain ⟨metrics, hdecode⟩ := hm.exists_decode
  rw [loggedEvents_of_wanted henabled hprint]
  exact ⟨[messageEvent around t m.snapshot], dataEvent around t m.snapshot, [], rfl, ht, nofun,
    m.snapshot.encode, _, rfl, hdecode, rfl⟩

theorem countP_reports {es : List Event} (h : AllReports es) :
    es.countP (Event.isDataOf p) = 0 := by
  rw [List.countP_eq_zero]
  intro e he hdata
  have hreport := h e he
  unfold Event.isDataOf at hdata
  split at hdata
  · next hmarker => rw [hmarker] at hreport; cases hreport
  · cases hdata

theorem countP_loggedEvents (henabled : ∀ level category, around.enabled level category = true)
    (hprint : around.config.printStatus = true) (t : Option Transition) (s : Snapshot) :
    (loggedEvents around t s).countP (Event.isDataOf p) = if t.any p then 1 else 0 := by
  cases t with
  | none => rfl
  | some t =>
    rw [loggedEvents_of_wanted henabled hprint]
    cases hp : p t <;> simp [Event.isDataOf, messageEvent, dataEvent, hp]

end Focus

/-! ## Starts and resolutions -/

/-- Whether a call resolves the operation. -/
def Call.resolves : Call → Bool
  | .ok | .okPath _ | .reject _ | .fail _ | .failPath .. => true
  | _ => false

theorem Call.isSome_outcome? (c : Call) (okPath : Option String) :
    (c.outcome? okPath).isSome = c.resolves := by
  cases c <;> rfl

/-- Whether a deed is a call that records an outcome. -/
def Deed.resolves : Deed → Bool
  | .call c => c.resolves
  | _ => false

namespace Deeds

/-- How often the operation was started. -/
def starts (ds : Deeds) : Nat := ds.countP (·.2 == .call .start)

/-- How often an outcome was recorded by a call. -/
def resolutions (ds : Deeds) : Nat := ds.countP (·.2.resolves)

/-- How often an outcome was recorded, by calls and drops. -/
def endings : Deeds → Nat
  | [] => 0
  | (_, d) :: ds =>
    endings ds + if (d.outcome? (setPath? ds) (isResolved ds)).isSome then 1 else 0

/-- Whether the meter was never dropped. -/
def Undropped (ds : Deeds) : Prop := ∀ entry ∈ ds, ∀ unwinding, entry.2 ≠ .drop unwinding

theorem starts_cons {ds : Deeds} {now : UInt64} {d : Deed} :
    starts ((now, d) :: ds) = starts ds + if d == .call .start then 1 else 0 :=
  List.countP_cons

theorem resolutions_cons {ds : Deeds} {now : UInt64} {d : Deed} :
    resolutions ((now, d) :: ds) = resolutions ds + if d.resolves then 1 else 0 :=
  List.countP_cons

theorem endings_eq_resolutions {ds : Deeds} (h : ds.Undropped) : ds.endings = ds.resolutions := by
  induction ds with
  | nil => rfl
  | cons entry ds ih =>
    obtain ⟨now, d⟩ := entry
    obtain ⟨hd, hds⟩ := List.forall_mem_cons.mp h
    have hrest : endings ds = resolutions ds := ih hds
    rw [endings, hrest, resolutions_cons]
    cases d with
    | call c => rw [Deed.outcome?, Call.isSome_outcome?, Deed.resolves]
    | part name => rfl
    | drop unwinding => exact absurd rfl (hd unwinding)

theorem isResolved_cons {ds : Deeds} {now : UInt64} {d : Deed} :
    isResolved ((now, d) :: ds) =
      ((d.outcome? ds.setPath? ds.isResolved).isSome || ds.isResolved) := by
  rw [isResolved, resolution?_cons]
  cases d.outcome? ds.setPath? ds.isResolved <;> simp [isResolved]

theorem endings_eq_zero_iff {ds : Deeds} : ds.endings = 0 ↔ ds.isResolved = false := by
  induction ds with
  | nil => exact iff_of_true rfl rfl
  | cons entry ds ih =>
    obtain ⟨now, d⟩ := entry
    have hrest : endings ds = 0 ↔ isResolved ds = false := ih
    rw [endings, isResolved_cons, Bool.or_eq_false_iff, ← hrest]
    cases (Deed.outcome? (setPath? ds) (isResolved ds) d).isSome <;> simp

end Deeds

/-! ## The transition of a deed -/

namespace Deed

variable {around : Surroundings} {m : Meter}

theorem isTerminal_terminal (s : Snapshot) : (Focus.terminal s).isTerminal = true := by
  unfold Focus.terminal
  repeat' split
  all_goals rfl

theorem any_started_transition? (d : Deed) :
    (d.transition? around m).any (· == .started) = (d == .call .start) := by
  cases houtcome : m.outcome? d with
  | some outcome =>
    have hterminal : Focus.terminal (m.resolved around.now outcome).snapshot ≠ .started :=
      fun h => Focus.terminal_ne_started _ (congrArg some h)
    have hd : d ≠ .call .start := by
      rintro rfl
      cases houtcome
    simp only [transition?, houtcome, Option.any_some]
    rw [beq_eq_false_iff_ne.mpr hterminal, beq_eq_false_iff_ne.mpr hd]
  | none =>
    simp only [transition?, houtcome]
    split
    · rfl
    · split <;> rfl
    · next hstart _ => exact (beq_eq_false_iff_ne.mpr hstart).symm

theorem any_isTerminal_transition? (d : Deed) :
    (d.transition? around m).any Transition.isTerminal = (m.outcome? d).isSome := by
  cases houtcome : m.outcome? d with
  | some outcome =>
    simp only [transition?, houtcome, Option.any_some, isTerminal_terminal, Option.isSome_some]
  | none =>
    simp only [transition?, houtcome, Option.isSome_none]
    split
    · rfl
    · split <;> rfl
    · rfl

end Deed

namespace World

variable {enabled : Enabled} {w : World}

/-! ## What is told of a meter -/

/-- Actions with what each of them logged. -/
def chronicle (enabled : Enabled) : World → List Action → List (Action × List Event)
  | _, [] => []
  | w, a :: as => (a, w.logged enabled a) :: chronicle enabled (w.act enabled a) as

/-- The events that actions on a meter logged. -/
def told (enabled : Enabled) (w : World) (as : List Action) (i : Nat) : List Event :=
  ((chronicle enabled w as).filter (·.1.target? == some i)).flatMap Prod.snd

theorem chronicle_concat (as : List Action) (a : Action) :
    chronicle enabled w (as ++ [a]) =
      chronicle enabled w as ++ [(a, (w.acts enabled as).logged enabled a)] := by
  induction as generalizing w with
  | nil => rfl
  | cons b as ih => exact congrArg (_ :: ·) ih

/-- The log is what the actions logged, one after another. -/
theorem log_eq_chronicle (enabled : Enabled) (w : World) (as : List Action) :
    (w.acts enabled as).log = w.log ++ (chronicle enabled w as).flatMap Prod.snd := by
  induction as using List.reverseRecOn with
  | nil => exact (List.append_nil _).symm
  | append_singleton as a ih =>
    rw [acts_concat, log_act, ih, chronicle_concat, List.flatMap_append, List.append_assoc]
    simp

theorem told_concat (as : List Action) (a : Action) (i : Nat) :
    told enabled w (as ++ [a]) i =
      told enabled w as i ++
        if a.target? = some i then (w.acts enabled as).logged enabled a else [] := by
  rw [told, chronicle_concat, List.filter_append, List.flatMap_append, told]
  by_cases ha : a.target? = some i <;> simp [ha]

theorem told_concat_other {as : List Action} {a : Action} {i : Nat} (h : a.deedOn? i = none) :
    told enabled w (as ++ [a]) i = told enabled w as i := by
  rw [told_concat, if_neg (deedOn?_eq_none_iff.mp h), List.append_nil]

theorem told_concat_on (as : List Action) (i : Nat) (d : Deed) :
    told enabled w (as ++ [d.on i]) i =
      told enabled w as i ++ (w.acts enabled as).logged enabled (d.on i) := by
  rw [told_concat, if_pos (target?_on i d)]

/-- A deed logs reports and then the pair of its transition, if it makes one. -/
theorem logged_deed {as : List Action} {i : Nat} {m : Meter} {session : Session}
    (hm : (w.acts enabled as).meters[i]? = some m)
    (hsession : (w.acts enabled as).sessions[m.session]? = some session) (d : Deed) :
    ∃ (reports : List Event) (g : Focus), Focus.AllReports reports ∧
      (w.acts enabled (as ++ [d.on i])).meters[i]? = some g.meter ∧
      (w.acts enabled as).logged enabled (d.on i) = reports ++
        Focus.loggedEvents ((w.acts enabled as).surroundings enabled session)
          (d.transition? ((w.acts enabled as).surroundings enabled session) m) g.snapshot := by
  obtain ⟨g, ⟨-, hevents⟩, hg, hlog⟩ := act_on hm hsession enabled d
  refine ⟨_, g, Focus.allReports_misuse d m.snapshot, ?_, ?_⟩
  · rw [acts_concat]
    exact hg
  · rw [logged, hlog, List.drop_left, hevents]
    rfl

section

variable (henabled : ∀ level category, enabled level category = true)
  (hprint : ∀ session ∈ w.sessions, session.config.printStatus = true)

include hprint

theorem printStatus_acts (as : List Action) {k : Nat} {session : Session}
    (hsession : (w.acts enabled as).sessions[k]? = some session) :
    session.config.printStatus = true := by
  have hconfig := (config?_eq_some_iff enabled w as k).mpr ⟨session, hsession, rfl⟩
  obtain ⟨session', hsession', hsame⟩ := Option.map_eq_some_iff.mp hconfig
  rw [← hsame]
  exact hprint session' (List.mem_of_getElem? hsession')

include henabled

theorem paired_logged (as : List Action) (a : Action) :
    Paired ((w.acts enabled as).logged enabled a) := by
  rcases log_act_cases enabled (w.acts enabled as) a with
    ⟨es, hes, hlog⟩ | ⟨i, m, session, t, g, -, -, hsession, heffect, hact⟩
  · rw [logged, hlog, List.drop_left]
    exact paired_of_allReports hes
  · obtain ⟨es, hes, hevents, -⟩ := heffect.logged
    have hprint' := printStatus_acts hprint as hsession
    rw [logged, hact, affected, List.drop_left, hevents]
    exact (paired_of_allReports hes).append
      (Focus.paired_loggedEvents henabled hprint' t g.snapshot)

theorem paired_log (hlog : w.log = []) (as : List Action) : Paired (w.acts enabled as).log := by
  induction as using List.reverseRecOn with
  | nil =>
    have hnone : (w.acts enabled []).log = [] := hlog
    rw [hnone]
    exact .nil
  | append_singleton as a ih =>
    rw [acts_concat, log_act]
    exact ih.append (paired_logged henabled hprint as a)

theorem paired_told (as : List Action) (i : Nat) : Paired (told enabled w as i) := by
  induction as using List.reverseRecOn with
  | nil => exact .nil
  | append_singleton as a ih =>
    rw [told_concat]
    refine ih.append ?_
    split
    · exact paired_logged henabled hprint as a
    · exact .nil

/-- A meter tells one pair for every start and one for every resolution. -/
theorem Orderly.countP_told (hw : w.Untouched) {as : List Action} (h : Orderly enabled w as)
    (i : Nat) :
    (told enabled w as i).countP (Event.isDataOf (· == .started)) =
        (diaryOf i w.clock as).deeds.starts ∧
      (told enabled w as i).countP (Event.isDataOf Transition.isTerminal) =
        (diaryOf i w.clock as).deeds.endings := by
  refine h.induction_on i ⟨rfl, rfl⟩ ?_ ?_
  · intro as a _ hother ih
    rw [told_concat_other hother, deeds_concat_other _ hother]
    exact ih
  · rintro as d horderly hlive ⟨hstarts, hendings⟩
    obtain ⟨m, hm⟩ := hlive.exists_meter
    obtain ⟨m₀, session, hsession, hfollows⟩ := horderly.of_concat.1.exists_follows hw hm
    obtain ⟨reports, g, hreports, -, hlogged⟩ := logged_deed hm hsession d
    have hprint' := printStatus_acts hprint as hsession
    have hnew (p : Transition → Bool) :
        ((w.acts enabled as).logged enabled (d.on i)).countP (Event.isDataOf p) =
          if (d.transition? ((w.acts enabled as).surroundings enabled session) m).any p
            then 1 else 0 := by
      rw [hlogged, List.countP_append, Focus.countP_reports hreports, Nat.zero_add,
        Focus.countP_loggedEvents henabled hprint']
    rw [told_concat_on, deeds_concat_on, List.countP_append, List.countP_append, hstarts, hendings,
      hnew, hnew, Deed.any_started_transition?, Deed.any_isTerminal_transition?,
      hfollows.outcome? (timed_diaryOf i w.clock as)]
    exact ⟨Deeds.starts_cons.symm, rfl⟩

/-- The last end of an operation that a meter tells is the one that it remembers. -/
theorem Orderly.last_tells (hw : w.Untouched) {as : List Action} (h : Orderly enabled w as)
    (i : Nat) : (diaryOf i w.clock as).deeds.isResolved = true → ∀ m : Meter,
      (w.acts enabled as).meters[i]? = some m → ∃ config, w.config? m.session = some config ∧
        LastTells (told enabled w as i) config m.snapshot.outcome := by
  refine h.induction_on i nofun ?_ ?_
  · intro as a horderly hother ih hresolved m hm
    by_cases hi : i < (w.acts enabled as).meters.length
    · rw [acts_concat, getElem?_act_of_not_target enabled hother hi] at hm
      rw [deeds_concat_other _ hother] at hresolved
      rw [told_concat_other hother]
      exact ih hresolved m hm
    · rw [deeds_diaryOf_eq_nil (horderly.deedOn?_eq_none (Nat.not_lt.mp hi))] at hresolved
      cases hresolved
  · intro as d horderly hlive ih hresolved m hm
    obtain ⟨m', hm'⟩ := hlive.exists_meter
    obtain ⟨m₀, session, hsession, hfollows⟩ := horderly.of_concat.1.exists_follows hw hm'
    have hconfig : w.config? m'.session = some session.config :=
      (config?_eq_some_iff enabled w as _).mpr ⟨session, hsession, rfl⟩
    obtain ⟨m'', hm'', hfollows'⟩ :=
      exists_follows_act (a := d.on i) (hfollows.home ▸ hconfig) hm' hfollows
    obtain rfl := Option.some.inj (hm''.symm.trans hm)
    obtain ⟨reports, g, hreports, hg, hlogged⟩ := logged_deed hm' hsession d
    obtain rfl := Option.some.inj (hm.symm.trans hg)
    have hprint' := printStatus_acts hprint as hsession
    have houtcome := hfollows.outcome? (timed_diaryOf i w.clock as) d
    have hhome : g.meter.session = m'.session := hfollows'.home.trans hfollows.home.symm
    rw [deeds_concat_on] at hresolved hfollows'
    rw [told_concat_on, hhome, hlogged]
    -- A resolution tells its own outcome; after any other deed the last pair is the one before.
    cases hmade : m'.outcome? d with
    | some outcome =>
      have hcoherent : g.meter.IsCoherent :=
        w.isCoherent_acts enabled hw _ _ (List.mem_of_getElem? hm)
      simp only [Deed.transition?, hmade]
      refine ⟨session.config, hconfig, .append_left (.append_left ?_ _) _⟩
      exact Focus.lastTells_loggedEvents henabled hprint' (Deed.isTerminal_terminal _) hcoherent
    | none =>
      rw [hmade, eq_comm] at houtcome
      have hsame : g.meter.snapshot.outcome = m'.snapshot.outcome := by
        rw [hfollows'.outcome, hfollows.outcome, Deeds.outcome,
          Deeds.resolution?_cons_none houtcome, Deeds.outcome]
      rw [Deeds.isResolved_cons, houtcome] at hresolved
      obtain ⟨config, hconfig, hlast⟩ := ih hresolved m' hm'
      refine ⟨config, hconfig, ?_⟩
      rw [hsame]
      refine hlast.append_right ?_
      rw [List.countP_append, Focus.countP_reports hreports,
        Focus.countP_loggedEvents henabled hprint', Deed.any_isTerminal_transition?, hmade]
      rfl

end

theorem undropped_diaryOf {clock : UInt64} {as : List Action} {i : Nat}
    (h : ∀ unwinding, .drop unwinding i ∉ as) : Deeds.Undropped (diaryOf i clock as).deeds := by
  induction as using List.reverseRecOn with
  | nil => exact fun _ hentry => absurd hentry List.not_mem_nil
  | append_singleton as a ih =>
    have hrest := ih fun unwinding hmem => h unwinding (List.mem_append_left _ hmem)
    cases hdeed : a.deedOn? i with
    | none =>
      rw [deeds_concat_other _ hdeed]
      exact hrest
    | some d =>
      obtain rfl := eq_on_of_deedOn? hdeed
      rw [deeds_concat_on]
      refine List.forall_mem_cons.mpr ⟨?_, hrest⟩
      rintro unwinding rfl
      exact h unwinding (List.mem_append_right _ (List.mem_singleton.mpr rfl))

/-- In orderly actions the drop of a meter is the last thing that is done to it. -/
theorem Orderly.deeds_of_drop {as : List Action} (h : Orderly enabled w as) (i : Nat) :
    (∃ unwinding, .drop unwinding i ∈ as) →
      ∃ now unwinding before, (diaryOf i w.clock as).deeds = (now, .drop unwinding) :: before ∧
        Deeds.Undropped before := by
  refine h.induction_on i ?_ ?_ ?_
  · rintro ⟨unwinding, hdrop⟩
    cases hdrop
  · rintro as a - hother ih ⟨unwinding, hdrop⟩
    rw [deeds_concat_other _ hother]
    rcases List.mem_append.mp hdrop with hmem | hmem
    · exact ih ⟨unwinding, hmem⟩
    · obtain rfl := List.mem_singleton.mp hmem
      cases (deedOn?_on i (.drop unwinding)).symm.trans hother
  · rintro as d - hlive - ⟨unwinding, hdrop⟩
    rcases List.mem_append.mp hdrop with hmem | hmem
    · exact absurd hmem (hlive.2 unwinding)
    · have hd := congrArg (Action.deedOn? i) (List.mem_singleton.mp hmem)
      rw [deedOn?_on] at hd
      obtain rfl := Option.some.inj ((deedOn?_on i (.drop unwinding)).symm.trans hd)
      exact ⟨_, unwinding, _, deeds_concat_on as i _ w.clock, undropped_diaryOf hlive.2⟩

end World

open World

/-- Whether the events of a meter are complete where a drop followed some deeds. Pairs are counted
by their data. -/
structure Complete (before : Deeds) (config : Config) (outcome : Outcome) (es : List Event) :
    Prop where
  /-- Messages and data come in pairs. -/
  paired : Paired es
  /-- There are as many messages as data of each kind of transition. -/
  messages : ∀ p, es.countP (Event.isMessageOf p) = es.countP (Event.isDataOf p)
  /-- There is one pair for every start. -/
  starts : es.countP (Event.isDataOf (· == .started)) = before.starts
  /-- There is one terminal pair for every resolution by a call and one for a drop without. -/
  endings : es.countP (Event.isDataOf Transition.isTerminal) =
    before.resolutions + if before.isResolved then 0 else 1
  /-- The end of the operation is told. -/
  ended : 1 ≤ es.countP (Event.isDataOf Transition.isTerminal)
  /-- The end of the operation is told once, unless it was resolved again. -/
  once : before.resolutions ≤ 1 → es.countP (Event.isDataOf Transition.isTerminal) = 1
  /-- The last terminal pair tells the outcome. -/
  last : LastTells es config outcome

theorem complete_of_counts {before : Deeds} (hbefore : before.Undropped) {now : UInt64}
    {unwinding : Bool} {config : Config} {outcome : Outcome} {es : List Event} (hpaired : Paired es)
    (hstarts : es.countP (Event.isDataOf (· == .started)) =
      Deeds.starts ((now, .drop unwinding) :: before))
    (hendings : es.countP (Event.isDataOf Transition.isTerminal) =
      Deeds.endings ((now, .drop unwinding) :: before))
    (hlast : LastTells es config outcome) : Complete before config outcome es := by
  -- A drop resolves an operation that no call has resolved, so there is one pair more or none.
  have hcalls : Deeds.endings before = before.resolutions := Deeds.endings_eq_resolutions hbefore
  have hzero : before.resolutions = 0 ↔ before.isResolved = false :=
    hcalls ▸ Deeds.endings_eq_zero_iff
  have hends : es.countP (Event.isDataOf Transition.isTerminal) =
      before.resolutions + if before.isResolved then 0 else 1 := by
    rw [hendings, Deeds.endings, hcalls, Deed.outcome?]
    cases Deeds.isResolved before <;> rfl
  refine ⟨hpaired, hpaired.countP_messages, ?_, hends, ?_, ?_, hlast⟩
  · rw [hstarts, Deeds.starts_cons]
    rfl
  all_goals
    rw [hends]
    cases hresolved : before.isResolved with
    | false => simp [hzero.mpr hresolved]
    | true =>
      have hpositive : before.resolutions ≠ 0 := by
        intro h
        cases hresolved.symm.trans (hzero.mp h)
      simp only [if_true]
      omega

/-- Where everything is wanted, the log of a script is what its actions logged, message and data
always in a pair. Every meter is dropped once, as the last thing that is done to it, and the events
of the actions on it are complete: one pair for every start, by whomever, one terminal pair for
every resolution and one more if the meter was dropped unresolved, and the last one of them tells
the outcome that the meter had at the end. -/
theorem lifecycle_events_complete {α : Type} (l : Logger) (steps : List (Step α)) (w : World)
    (hw : w.Untouched) (henabled : ∀ level category, l.enabled level category = true)
    (hprint : ∀ session ∈ w.sessions, session.config.printStatus = true) :
    (runScript l steps w).1.world.log =
        (chronicle l.enabled w (runScript l steps w).1.history).flatMap Prod.snd ∧
      Paired (runScript l steps w).1.world.log ∧
      ∀ i m, (runScript l steps w).1.world.meters[i]? = some m →
        ∃ now unwinding before config,
          (diaryOf i w.clock (runScript l steps w).1.history).deeds =
            (now, .drop unwinding) :: before ∧
          Deeds.Undropped before ∧ w.config? m.session = some config ∧
          Complete before config m.snapshot.outcome
            (told l.enabled w (runScript l steps w).1.history i) := by
  have horderly := (owns_runScript l steps hw).orderly
  have hlog := log_eq_chronicle l.enabled w (runScript l steps w).1.history
  have hpaired := paired_log henabled hprint hw.log (runScript l steps w).1.history
  rw [← world_runScript] at hlog hpaired
  rw [hw.log] at hlog
  refine ⟨hlog, hpaired, ?_⟩
  intro i m hm
  have hdrop := exists_drop_of_runScript l steps hw (List.getElem?_eq_some_iff.mp hm).1
  obtain ⟨now, unwinding, before, hdeeds, hundropped⟩ := horderly.deeds_of_drop i hdrop
  obtain ⟨hstarts, hendings⟩ := horderly.countP_told henabled hprint hw i
  have hresolved : (diaryOf i w.clock (runScript l steps w).1.history).deeds.isResolved = true := by
    rw [hdeeds, Deeds.isResolved_cons]
    cases Deeds.isResolved before <;> rfl
  rw [world_runScript] at hm
  obtain ⟨config, hconfig, hlast⟩ := horderly.last_tells henabled hprint hw i hresolved m hm
  rw [hdeeds] at hstarts hendings
  exact ⟨now, unwinding, before, config, hdeeds, hundropped, hconfig,
    complete_of_counts hundropped (paired_told henabled hprint _ i) hstarts hendings hlast⟩

/-- An operation whose closure panics fails once, and its meter is dropped while unwinding. -/
theorem lifecycle_events_complete_panic :
    ∃ config, (told Logger.recorder.enabled { sessions := [{ id := "s" }] } (runScript
        Logger.recorder ([.create "m" "c" none, .execute "m" .run [.panic (.text "p")]] :
          List (Step Unit)) { sessions := [{ id := "s" }] }).1.history 0).countP
            (Event.isDataOf Transition.isTerminal) = 1 ∧
      LastTells (told Logger.recorder.enabled { sessions := [{ id := "s" }] } (runScript
        Logger.recorder ([.create "m" "c" none, .execute "m" .run [.panic (.text "p")]] :
          List (Step Unit)) { sessions := [{ id := "s" }] }).1.history 0) config
            (.fail panicPath (some "p")) := by
  obtain ⟨-, -, hmeters⟩ := lifecycle_events_complete Logger.recorder
    ([.create "m" "c" none, .execute "m" .run [.panic (.text "p")]] : List (Step Unit))
    { sessions := [{ id := "s" }] } ⟨rfl, rfl, rfl, by simp⟩ (fun _ _ => rfl) (by decide)
  obtain ⟨now, unwinding, before, config, hdeeds, -, -, hcomplete⟩ := hmeters 0 _ rfl
  have hbefore := (List.cons.inj hdeeds).2
  refine ⟨config, hcomplete.once ?_, hcomplete.last⟩
  rw [← hbefore]
  decide +kernel

end Metering
