import Mathlib.Data.List.Induction
import Resemblance.Comparison.Session
import Resemblance.Proofs.Comparison.Naive

/-!
# What recorders are told

A session is a sequence of installations, clearings and comparisons.  A
recorder listens from its installation until the next installation or clearing,
and what it has been told are the successful comparisons of that time, in order.
-/

namespace Resemblance.Session

inductive Step where
  | install
  | clear
  | compare (settings : ComparisonSettings) (files : List TokenizedFile)

namespace Step

def isInstall : Step → Bool
  | install => true
  | _ => false

def isComparison : Step → Bool
  | compare _ _ => true
  | _ => false

/-- What there is to tell of a step; a comparison that fails is passed over in
silence. -/
def event? : Step → Option ComparisonEvent
  | compare settings files =>
    match Comparison.compareAll settings files with
    | .ok results =>
      some
        { files := files.length
          candidates := files.length * (files.length - 1) / 2
          retained := results.length }
    | .error _ => none
  | _ => none

end Step

def step (s : Session) : Step → Session
  | .install => s.install
  | .clear => s.clear
  | .compare settings files => (s.compare settings files).2

/-- The session after the steps, which starts without any recorder. -/
def run (steps : List Step) : Session := steps.foldl step {}

def installs (steps : List Step) : Nat := steps.countP (·.isInstall)

/-- Recorders are numbered as they are installed.  One listens when nothing but
comparisons followed its installation. -/
def Listens (k : Nat) (steps : List Step) : Prop :=
  ∃ before after, steps = before ++ .install :: after ∧ installs before = k ∧
    ∀ step ∈ after, step.isComparison = true

section Listening

variable {steps : List Step} {k : Nat}

theorem run_append_singleton
    (steps : List Step)
    (x : Step) :
    run (steps ++ [x]) = (run steps).step x := by
  simp [run]

theorem installs_append_singleton
    (steps : List Step)
    (x : Step) :
    installs (steps ++ [x]) = installs steps + if x.isInstall then 1
      else 0 := by
  simp [installs, List.countP_singleton]

theorem not_listens_nil (k : Nat) : ¬ Listens k [] := by
  rintro ⟨before, after, hsteps, -, -⟩
  simp at hsteps

theorem listens_append_singleton
    (steps : List Step)
    (x : Step)
    (k : Nat) :
    Listens k (steps ++ [x]) ↔
      x.isInstall = true ∧ installs steps = k ∨
        x.isComparison = true ∧ Listens k steps := by
  constructor
  · rintro ⟨before, after, hsteps, hcount, hafter⟩
    rcases List.eq_nil_or_concat after with rfl | ⟨after, y, rfl⟩
    · obtain ⟨rfl, rfl⟩ := List.append_singleton_inj.1 hsteps
      exact .inl ⟨rfl, hcount⟩
    · rw [List.concat_eq_append] at hsteps hafter
      rw [← List.cons_append, ← List.append_assoc] at hsteps
      obtain ⟨rfl, rfl⟩ := List.append_singleton_inj.1 hsteps
      refine .inr ⟨hafter x (by simp), before, after, rfl, hcount, ?_⟩
      intro step hstep
      exact hafter step (by simp [hstep])
  · rintro (⟨hx, hcount⟩ | ⟨hx, before, after, rfl, hcount, hafter⟩)
    · cases x <;> simp [Step.isInstall] at hx
      exact ⟨steps, [], rfl, hcount, by simp⟩
    · refine ⟨before, after ++ [x], by simp, hcount, ?_⟩
      intro step hstep
      rcases List.mem_append.1 hstep with hstep | hstep
      · exact hafter step hstep
      · rwa [List.mem_singleton.1 hstep]

theorem Listens.lt_installs (hlistens : Listens k steps) :
    k < installs steps := by
  obtain ⟨before, after, rfl, rfl, -⟩ := hlistens
  simp [installs, Step.isInstall]

end Listening

section Active

variable {s : Session} {steps : List Step}

@[simp] theorem active_record
    (s : Session)
    (e : ComparisonEvent) :
    (s.record e).active = s.active := by
  unfold record
  split <;> simp [*]

@[simp] theorem length_recorders_record
    (s : Session)
    (e : ComparisonEvent) :
    (s.record e).recorders.length = s.recorders.length := by
  unfold record
  split <;> simp

theorem getElem?_recorders_record
    (s : Session)
    (e : ComparisonEvent)
    (k : Nat) :
    (s.record e).recorders[k]? =
      s.recorders[k]?.map (· ++ if s.active = some k then [e] else []) := by
  unfold record
  split
  next i hactive =>
    by_cases hik : i = k
    · simp [hactive, hik]
    · simp [hactive, hik]
  next hactive => simp [hactive]

/-- The number of pairs looked at is known from the number of files. -/
theorem step_compare
    (s : Session)
    (settings : ComparisonSettings)
    (files : List TokenizedFile) :
    s.step (.compare settings files) =
      (Step.compare settings files).event?.elim s s.record := by
  simp only [step, compare, Step.event?, length_pairIndices, pairCount]
  cases Comparison.compareAll settings files <;> rfl

/-- A session remembers how many recorders there are and which one listens. -/
structure Follows (s : Session) (steps : List Step) : Prop where
  length_eq : s.recorders.length = installs steps
  active_iff : ∀ k, s.active = some k ↔ Listens k steps

theorem Follows.step
    (hs : s.Follows steps)
    (x : Step) :
    (s.step x).Follows (steps ++ [x]) := by
  cases x with
  | install =>
      refine ⟨?_, fun k => ?_⟩
      · simp [Session.step, install, installs_append_singleton, Step.isInstall,
          hs.length_eq]
      · simp [Session.step, install, listens_append_singleton, Step.isInstall,
          Step.isComparison, hs.length_eq]
  | clear =>
      refine ⟨?_, fun k => ?_⟩
      · simp [Session.step, clear, installs_append_singleton, Step.isInstall,
          hs.length_eq]
      · simp [Session.step, clear, listens_append_singleton, Step.isInstall,
          Step.isComparison]
  | compare settings files =>
      rw [step_compare]
      refine ⟨?_, fun k => ?_⟩
      · cases (Step.compare settings files).event? <;>
          simp [installs_append_singleton, Step.isInstall, hs.length_eq]
      · cases (Step.compare settings files).event? <;>
          simp [listens_append_singleton, Step.isInstall, Step.isComparison,
            hs.active_iff]

theorem follows_run (steps : List Step) : (run steps).Follows steps := by
  induction steps using List.reverseRecOn with
  | nil =>
      refine ⟨rfl, fun k => ?_⟩
      simp [run, not_listens_nil]
  | append_singleton steps x ih =>
      rw [run_append_singleton]
      exact ih.step x

instance (k : Nat) (steps : List Step) : Decidable (Listens k steps) :=
  decidable_of_iff _ ((follows_run steps).active_iff k)

end Active

/-- What recorder `k` ought to have been told after the steps. -/
def told (k : Nat) (steps : List Step) : List ComparisonEvent :=
  (List.range steps.length).filterMap fun moment =>
    if Listens k (steps.take moment) then steps[moment]?.bind Step.event?
    else none

section Telling

variable {steps : List Step} {k : Nat}

theorem told_append_singleton
    (k : Nat)
    (steps : List Step)
    (x : Step) :
    told k (steps ++ [x]) =
      told k steps ++ if Listens k steps then x.event?.toList else [] := by
  have hearlier : ∀ moment ∈ List.range steps.length,
      (if Listens k ((steps ++ [x]).take moment) then
        (steps ++ [x])[moment]?.bind Step.event? else none) =
      if Listens k (steps.take moment) then steps[moment]?.bind Step.event?
      else none := by
    intro moment hmoment
    have hlt := List.mem_range.1 hmoment
    rw [List.take_append_of_le_length hlt.le, List.getElem?_append_left hlt]
  rw [told, List.length_append, List.length_singleton, List.range_succ,
    List.filterMap_append, List.filterMap_congr hearlier, told]
  congr 1
  by_cases hlistens : Listens k steps
  · cases hx : x.event? <;> simp [hlistens, hx]
  · simp [hlistens]

/-- Nothing is told to a recorder before it is installed. -/
theorem told_of_installs_le (hnew : installs steps ≤ k) :
    told k steps = [] := by
  rw [told, List.filterMap_eq_nil_iff]
  intro moment _
  have hcount : installs (steps.take moment) ≤ installs steps :=
    (List.take_sublist moment steps).countP_le
  rw [if_neg fun hlistens => ?_]
  have hlt := hlistens.lt_installs
  omega

end Telling

section Runs

variable {s : Session} {steps : List Step}

/-- What one step adds to the recorders. -/
theorem Follows.recorders_step
    (hs : s.Follows steps)
    (hrecorders : s.recorders =
      (List.range (installs steps)).map (told · steps))
    (x : Step) :
    (s.step x).recorders =
      (List.range (installs (steps ++ [x]))).map (told · (steps ++ [x])) := by
  cases x with
  | install =>
      have hnew : told (installs steps) steps = [] := told_of_installs_le le_rfl
      simp [Session.step, install, hrecorders, installs_append_singleton,
        told_append_singleton, Step.isInstall, Step.event?, List.range_succ,
        hnew]
  | clear =>
      simp [Session.step, clear, hrecorders, installs_append_singleton,
        told_append_singleton, Step.isInstall, Step.event?]
  | compare settings files =>
      rw [step_compare]
      cases hevent : (Step.compare settings files).event? with
      | none =>
          simp [hrecorders, hevent, installs_append_singleton,
            told_append_singleton, Step.isInstall]
      | some e =>
          apply List.ext_getElem?
          intro k
          rw [Option.elim_some, getElem?_recorders_record, hrecorders]
          by_cases hk : k < installs steps <;>
            simp [hevent, hs.active_iff, installs_append_singleton,
              told_append_singleton, Step.isInstall, hk]

theorem recorders_run (steps : List Step) :
    (run steps).recorders =
      (List.range (installs steps)).map (told · steps) := by
  induction steps using List.reverseRecOn with
  | nil => rfl
  | append_singleton steps x ih =>
      rw [run_append_singleton]
      exact (follows_run steps).recorders_step ih x

theorem told_prefix_append
    (k : Nat)
    (steps later : List Step) :
    told k steps <+: told k (steps ++ later) := by
  induction later using List.reverseRecOn with
  | nil => simp
  | append_singleton later x ih =>
      rw [← List.append_assoc, told_append_singleton]
      exact ih.trans (List.prefix_append _ _)

theorem getD_recorders_run
    (steps : List Step)
    (k : Nat) :
    (run steps).recorders.getD k [] = told k steps := by
  rw [recorders_run]
  by_cases hk : k < installs steps
  · simp [hk]
  · simp [hk, told_of_installs_le (Nat.not_lt.1 hk)]

/-- Every recorder has been told of the successful comparisons made while it
listened, of no other step, and nothing it was told is ever taken back. -/
theorem recorders_faithful (steps later : List Step) :
    (run steps).recorders = (List.range (installs steps)).map (told · steps) ∧
      ∀ k,
        (run steps).recorders.getD k [] <+:
          (run (steps ++ later)).recorders.getD k [] := by
  refine ⟨recorders_run steps, fun k => ?_⟩
  rw [getD_recorders_run, getD_recorders_run]
  exact told_prefix_append k steps later

/-- The first recorder misses what happens after it was replaced, and nobody
hears of the comparison that fails or of the one after the clearing. -/
example :
    let all := Step.compare {} Comparison.namesakes
    let one := Step.compare {} (Comparison.namesakes.take 1)
    (run [.install, all, .install, one, all, all, .clear, all]).recorders =
      [[⟨3, 3, 3⟩], [⟨3, 3, 3⟩, ⟨3, 3, 3⟩]] := by
  decide +kernel

end Runs

end Resemblance.Session
