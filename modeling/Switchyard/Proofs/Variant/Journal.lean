import Mathlib.Data.List.DropRight
import Mathlib.Data.List.Flatten
import Mathlib.Logic.Relation
import Switchyard.Proofs.Store.Gains

/-!
A store with a journal of what it was asked.

Where several sessions share a store, it matters who asked and who was granted a clone. The journal
has one entry for each question, in the order in which they were answered. What other sessions do
between two questions of one session only adds entries that are not its own (`Others`).
-/

namespace Switchyard

/-- One question: the session that asked it, and the name that a copy was given, if one was. -/
structure Entry where
  session : Nat
  given : Option String
  deriving DecidableEq, Repr

/-- The names of the copies that a session was granted. -/
def clonesOf (session : Nat) (log : List Entry) : List String :=
  log.filterMap fun entry => if entry.session = session then entry.given else none

/-- The names of the copies that all sessions but one were granted. -/
def clonesBut (session : Nat) (log : List Entry) : List String :=
  log.filterMap fun entry => if entry.session = session then none else entry.given

/-- The names of the copies that were granted to anyone. -/
def clonesOfAll (log : List Entry) : List String := log.filterMap (·.given)

/-- What was asked from the first question of a session to its last. -/
def callOf (session : Nat) (log : List Entry) : List Entry :=
  (log.dropWhile (·.session ≠ session)).rdropWhile (·.session ≠ session)

/-- Nothing of it was asked by the session. -/
def Foreign (session : Nat) (log : List Entry) : Prop := ∀ entry ∈ log, entry.session ≠ session

section Logs

variable {session : Nat} {log later : List Entry} {entry : Entry}

@[simp] theorem clonesOf_append : clonesOf session (log ++ later) =
    clonesOf session log ++ clonesOf session later :=
  List.filterMap_append

@[simp] theorem clonesBut_append : clonesBut session (log ++ later) =
    clonesBut session log ++ clonesBut session later :=
  List.filterMap_append

@[simp] theorem clonesOf_own (given : Option String) :
    clonesOf session [⟨session, given⟩] = given.toList := by
  cases given <;> simp [clonesOf]

@[simp] theorem clonesBut_own (given : Option String) :
    clonesBut session [⟨session, given⟩] = [] := by
  simp [clonesBut]

theorem clonesOf_foreign (h : Foreign session log) : clonesOf session log = [] :=
  List.filterMap_eq_nil_iff.mpr fun entry hentry => if_neg (h entry hentry)

theorem Foreign.concat (h : Foreign session log) (hentry : entry.session ≠ session) :
    Foreign session (log ++ [entry]) := by
  intro other hother
  rcases List.mem_append.mp hother with hold | hnew
  · exact h other hold
  · rwa [List.mem_singleton.mp hnew]

/-- A call goes from the first question of its session to the last. -/
theorem callOf_eq {before middle : List Entry} {first last : Entry}
    (hbefore : Foreign session before) (hfirst : first.session = session)
    (hlast : last.session = session) (hcall : first :: middle = log ++ [last]) :
    callOf session (before ++ first :: middle) = first :: middle := by
  have hdrop : (before ++ first :: middle).dropWhile (·.session ≠ session) = first :: middle := by
    rw [List.dropWhile_append_of_pos fun entry hentry => by simpa using hbefore entry hentry]
    exact List.dropWhile_cons_of_neg (by simpa using hfirst)
  rw [callOf, hdrop, hcall]
  exact List.rdropWhile_concat_neg _ _ _ (by simpa using hlast)

/-- What others ask later is not part of the call. -/
theorem callOf_append (hcall : callOf session log ≠ []) (hlater : Foreign session later) :
    callOf session (log ++ later) = callOf session log := by
  have hdrop : log.dropWhile (·.session ≠ session) ≠ [] := fun hnil => hcall (by
    rw [callOf, hnil, List.rdropWhile_nil])
  rw [callOf, List.dropWhile_append, if_neg (by simpa using hdrop), List.rdropWhile,
    List.reverse_append, List.dropWhile_append_of_pos
      fun entry hentry => by simpa using hlater entry (List.mem_reverse.mp hentry)]
  rfl

/-! ### Clones granted to anyone -/

theorem clonesOfAll_concat (log : List Entry) (entry : Entry) :
    clonesOfAll (log ++ [entry]) = clonesOfAll log ++ entry.given.toList := by
  cases hgiven : entry.given <;> simp [clonesOfAll, hgiven]

/-- What is given to one of some sessions only. -/
theorem flatMap_given {session count : Nat} (h : session < count) (given : Option String) :
    ((List.range count).flatMap fun other => clonesOf other [⟨session, given⟩]) =
      given.toList := by
  induction count with
  | zero => exact absurd h (Nat.not_lt_zero session)
  | succ count ih =>
    rw [List.range_succ, List.flatMap_append, List.flatMap_singleton]
    rcases Nat.lt_succ_iff_lt_or_eq.mp h with hless | rfl
    · rw [ih hless, clonesOf_foreign, List.append_nil]
      exact fun entry hentry => by simpa [List.mem_singleton.mp hentry] using hless.ne
    · rw [clonesOf_own, List.flatMap_eq_nil_iff.mpr, List.nil_append]
      exact fun other hother => clonesOf_foreign fun entry hentry => by
        simpa [List.mem_singleton.mp hentry] using (List.mem_range.mp hother).ne'

/-- All clones that were granted were granted to one of the sessions. -/
theorem clonesOfAll_perm {log : List Entry} {count : Nat}
    (h : ∀ entry ∈ log, entry.session < count) :
    (clonesOfAll log).Perm ((List.range count).flatMap fun session => clonesOf session log) := by
  induction log with
  | nil => simp [clonesOfAll, clonesOf]
  | cons entry log ih =>
    have hlater := ih fun other hother => h other (List.mem_cons_of_mem _ hother)
    have hentry : clonesOfAll (entry :: log) = entry.given.toList ++ clonesOfAll log := by
      cases hgiven : entry.given <;> simp [clonesOfAll, hgiven]
    rw [hentry, ← flatMap_given (h entry List.mem_cons_self) entry.given]
    refine (hlater.append_left _).trans ((List.flatMap_append_perm _ _ _).trans (.of_eq ?_))
    exact congrArg ((List.range count).flatMap ·) (funext fun session => clonesOf_append.symm)

/-- Of all who were granted a clone, the last one has been granted it since any other was. -/
theorem exists_last_granted {log : List Entry} (h : clonesOfAll log ≠ []) :
    ∃ entry ∈ log, ∀ since, since <:+ log → clonesOf entry.session since = [] →
      clonesBut entry.session since = [] := by
  induction log using List.reverseRecOn with
  | nil => exact absurd rfl h
  | append_singleton log entry ih =>
    cases hgiven : entry.given with
    | none =>
      obtain ⟨last, hlast, hsince⟩ := ih fun hnil => h (by simpa [clonesOfAll, hgiven] using hnil)
      refine ⟨last, List.mem_append_left _ hlast, fun since hsuffix hnone => ?_⟩
      rcases List.suffix_concat_iff.mp hsuffix with rfl | ⟨since, rfl, hearlier⟩
      · rfl
      · have hentry : clonesBut last.session [entry] = [] := by simp [clonesBut, hgiven]
        rw [clonesOf_append] at hnone
        rw [clonesBut_append, hentry, hsince since hearlier (List.append_eq_nil_iff.mp hnone).1]
        rfl
    | some name =>
      have hentry := List.mem_append_right log (List.mem_singleton_self entry)
      refine ⟨entry, hentry, fun since hsuffix hnone => ?_⟩
      rcases List.suffix_concat_iff.mp hsuffix with rfl | ⟨since, rfl, _⟩
      · rfl
      · simp [clonesOf, hgiven] at hnone

/-- Where nobody was granted a clone, nobody else was. -/
theorem clonesBut_eq_nil {session : Nat} {log since : List Entry} (h : clonesOfAll log = [])
    (hsince : since <:+ log) : clonesBut session since = [] := by
  refine List.filterMap_eq_nil_iff.mpr fun entry hentry => ?_
  rw [List.filterMap_eq_nil_iff.mp h entry (hsince.subset hentry), ite_self]

end Logs

/-! ### Journals -/

/-- A store, and what it was asked so far. -/
structure Journal where
  store : Store
  log : List Entry

namespace Journal

/-- Answers a session, and puts down what was asked. -/
def answer (session : Nat) (query : RegistryQuery) (journal : Journal) :
    Except Fault query.Answer × Journal :=
  let (answer, store) := journal.store.answerRegistry query
  (answer, ⟨store, journal.log ++ [⟨session, query.given? answer⟩]⟩)

/-- One question has been answered. -/
def Gains (journal : Journal) (entry : Entry) (after : Journal) : Prop :=
  journal.store.Gains entry.given after.store ∧ after.log = journal.log ++ [entry]

/-- Other sessions have asked, and none of them was granted a clone under any of some names. -/
def Others (session : Nat) (names : List String) : Journal → Journal → Prop :=
  Relation.ReflTransGen fun journal after => ∃ entry, journal.Gains entry after ∧
    entry.session ≠ session ∧ ∀ name ∈ entry.given, name ∉ names

/-- There is no number left. -/
def Full (journal : Journal) : Prop := ∀ number, journal.store.nameAt number ≠ none

end Journal

/-- A store with a journal, as the registry of one session. -/
def Store.journal (session : Nat) : Server registryProtocol Journal :=
  ⟨Journal.answer session, fun _ journal => journal⟩

/-- The question deletes nothing, and clones to none but these names. -/
def RegistryQuery.Adds (names : List String) : RegistryQuery → Prop
  | .list _ => True
  | .clone _ _ name => name ∈ names
  | .delete _ => False

namespace RegistryQuery

variable {query : RegistryQuery} {names : List String}

theorem Adds.ne_delete (h : query.Adds names) (number : UInt32) : query ≠ .delete number := by
  rintro rfl
  exact h

/-- What is given is among the names. -/
theorem Adds.mem_of_given (h : query.Adds names) {answer : Except Fault query.Answer}
    {name : String} (hgiven : query.given? answer = some name) : name ∈ names := by
  cases query with
  | list => cases hgiven
  | clone =>
    cases answer with
    | error => cases hgiven
    | ok =>
      cases hgiven
      exact h
  | delete => exact h.elim

end RegistryQuery

namespace Journal

variable {session : Nat} {names : List String} {entry : Entry} {journal after : Journal}

theorem Gains.full (h : journal.Gains entry after) (hfull : journal.Full) : after.Full := by
  intro number hnone
  obtain ⟨name, hname⟩ := Option.ne_none_iff_exists'.mp (hfull number)
  rw [h.1.nameAt_eq hname] at hnone
  cases hnone

theorem Others.full (h : Others session names journal after)
    (hfull : journal.Full) : after.Full := by
  induction h with
  | refl => exact hfull
  | tail _ hstep ih =>
    obtain ⟨_, hgains, _⟩ := hstep
    exact hgains.full ih

theorem Others.log_eq (h : Others session names journal after) :
    ∃ more, Foreign session more ∧ after.log = journal.log ++ more := by
  induction h with
  | refl => exact ⟨[], nofun, (List.append_nil _).symm⟩
  | tail _ hstep ih =>
    obtain ⟨more, hmore, hlog⟩ := ih
    obtain ⟨entry, hgains, hsession, _⟩ := hstep
    refine ⟨more ++ [entry], hmore.concat hsession, ?_⟩
    rw [hgains.2, hlog, List.append_assoc]

theorem Others.clonesOf_eq (h : Others session names journal after) :
    clonesOf session after.log = clonesOf session journal.log := by
  obtain ⟨more, hmore, hlog⟩ := h.log_eq
  rw [hlog, clonesOf_append, clonesOf_foreign hmore, List.append_nil]

end Journal

end Switchyard
