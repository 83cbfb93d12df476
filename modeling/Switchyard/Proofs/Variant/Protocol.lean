import Switchyard.Proofs.Variant.Listing
import Switchyard.Proofs.Variant.Rounds

/-!
What cloning asks of a registry, whatever it is answered.

A registry may answer anything: lists that are out of date or that make no sense, and any fault at
any time. What can be relied on is the order of the questions. The variants are listed once at
first, and then each target is handled in turn (`Handles`): it is refused without a question, or
what has its name is deleted first, and then numbers are tried, each after the first with a list
that was read because the number before it was taken, until the clone is granted, is refused for
another reason, or the attempts are used up. Each number that is tried is the lowest that is free in
the list that the session works from by then, which is the list read last without what was deleted
and with what was cloned since (`learnt`). A fault that is no conflict is the last answer, and is
what the call comes to.
-/

namespace Switchyard

/-- A question that a registry was asked, and its answer. -/
structure Answered where
  query : RegistryQuery
  answer : Except Fault query.Answer

namespace Answered

/-- The list to work from once the question is answered: one that was read replaces it, what was
cloned is put at its end, and what was deleted is taken out. -/
def learn (known : List VariantInfo) : Answered → List VariantInfo
  | ⟨.list _, .ok infos⟩ => infos
  | ⟨.clone _ number name, .ok _⟩ => known ++ [⟨number, name⟩]
  | ⟨.delete number, .ok _⟩ => known.filter (·.number ≠ number)
  | ⟨_, .error _⟩ => known

/-- A clone was refused because the number was taken. -/
def IsConflict (call : Answered) : Prop :=
  ∃ source number name fault, call = ⟨.clone source number name, .error fault⟩ ∧
    fault.kind = .duplicateVariantNum

end Answered

/-- The list to work from after some questions, of which none is known at first. -/
def learnt (known : List VariantInfo) (calls : List Answered) : List VariantInfo :=
  calls.foldl Answered.learn known

/-! ### The order of the questions -/

/-- A number was taken when it was tried for a clone, and the variants were listed again. -/
structure Conflict where
  number : UInt32
  fault : Fault
  taken : fault.kind = .duplicateVariantNum
  fresh : List VariantInfo

/-- What was asked about a number that was taken. -/
def Conflict.asked (source : UInt32) (target : String) (conflict : Conflict) : List Answered :=
  [⟨.clone source conflict.number target, .error conflict.fault⟩,
    ⟨.list true, .ok conflict.fresh⟩]

/-- What is asked at last for a clone, after some numbers that were taken, and what comes of it. -/
inductive EndsAttempts (source : UInt32) (target : String) (taken : Nat) :
    List Answered → Except Fault Unit → Prop
  | granted {number : UInt32} :
    EndsAttempts source target taken [⟨.clone source number target, .ok ()⟩] (.ok ())
  | refused {number : UInt32} {fault : Fault} (hkind : fault.kind ≠ .duplicateVariantNum) :
    EndsAttempts source target taken [⟨.clone source number target, .error fault⟩] (.error fault)
  | exhausted {number : UInt32} {fault : Fault} (hkind : fault.kind = .duplicateVariantNum)
      (hlast : taken + 1 = maxCloneAttempts) :
    EndsAttempts source target taken [⟨.clone source number target, .error fault⟩]
      (.error (.cloneAttemptsExhausted target maxCloneAttempts))
  | unlisted {number : UInt32} {fault fault' : Fault} (hkind : fault.kind = .duplicateVariantNum)
      (hmore : taken + 1 < maxCloneAttempts) :
    EndsAttempts source target taken
      [⟨.clone source number target, .error fault⟩, ⟨.list true, .error fault'⟩] (.error fault')

/-- What is asked for one target, with a list to work from, and what comes of it. -/
inductive Handles (source : UInt32) (overwrite : Bool) (known : List VariantInfo)
    (target : String) : List Answered → Except Fault Unit → Prop
  | kept {existing : VariantInfo} (hfound : VariantInfo.find? target known = some existing)
      (hkeep : overwrite = false) :
    Handles source overwrite known target [] (.error (.variantExists target))
  | itself {existing : VariantInfo} (hfound : VariantInfo.find? target known = some existing)
      (hoverwrite : overwrite = true) (hitself : existing.number = source) :
    Handles source overwrite known target [] (.error (.overwriteSource target))
  | guarded {existing : VariantInfo} (hfound : VariantInfo.find? target known = some existing)
      (hoverwrite : overwrite = true) (hother : existing.number ≠ source)
      (hinitial : target = initialVariantName) :
    Handles source overwrite known target [] (.error .initialVariantProtected)
  | undeleted {existing : VariantInfo} {fault : Fault}
      (hfound : VariantInfo.find? target known = some existing)
      (hoverwrite : overwrite = true) (hother : existing.number ≠ source)
      (hinitial : target ≠ initialVariantName) :
    Handles source overwrite known target [⟨.delete existing.number, .error fault⟩] (.error fault)
  | replaced {existing : VariantInfo} {conflicts : List Conflict} {last : List Answered}
      {result : Except Fault Unit} (hfound : VariantInfo.find? target known = some existing)
      (hoverwrite : overwrite = true) (hother : existing.number ≠ source)
      (hinitial : target ≠ initialVariantName) (hfew : conflicts.length < maxCloneAttempts)
      (hlast : EndsAttempts source target conflicts.length last result) :
    Handles source overwrite known target
      (⟨.delete existing.number, .ok ()⟩ :: (conflicts.flatMap (·.asked source target) ++ last))
      result
  | new {conflicts : List Conflict} {last : List Answered} {result : Except Fault Unit}
      (hnew : VariantInfo.find? target known = none) (hfew : conflicts.length < maxCloneAttempts)
      (hlast : EndsAttempts source target conflicts.length last result) :
    Handles source overwrite known target (conflicts.flatMap (·.asked source target) ++ last) result

/-- What is asked for some targets, one after the other, until one fails. -/
inductive HandlesAll (source : UInt32) (overwrite : Bool) :
    List VariantInfo → List String → List Answered → Except Fault Unit → Prop
  | finished {known : List VariantInfo} : HandlesAll source overwrite known [] [] (.ok ())
  | failed {known : List VariantInfo} {target : String} {targets : List String}
      {calls : List Answered} {fault : Fault}
      (htarget : Handles source overwrite known target calls (.error fault)) :
    HandlesAll source overwrite known (target :: targets) calls (.error fault)
  | next {known : List VariantInfo} {target : String} {targets : List String}
      {calls later : List Answered} {result : Except Fault Unit}
      (htarget : Handles source overwrite known target calls (.ok ()))
      (hrest : HandlesAll source overwrite (learnt known calls) targets later result) :
    HandlesAll source overwrite known (target :: targets) (calls ++ later) result

/-- What is asked once the variants have been listed, and what comes of it. -/
inductive GoesOn (source : String) (targets : List String) (overwrite : Bool) :
    Except Fault (List VariantInfo) → List Answered → Except Fault Unit → Prop
  | unlisted {fault : Fault} : GoesOn source targets overwrite (.error fault) [] (.error fault)
  | unknown {infos : List VariantInfo} (hsource : VariantInfo.find? source infos = none) :
    GoesOn source targets overwrite (.ok infos) [] (.error (.variantUnknown source))
  | went {infos : List VariantInfo} {info : VariantInfo} {later : List Answered}
      {result : Except Fault Unit} (hsource : VariantInfo.find? source infos = some info)
      (hall : HandlesAll info.number overwrite infos targets later result) :
    GoesOn source targets overwrite (.ok infos) later result

/-- The last answer was this fault. -/
def EndsIn (calls : List Answered) (fault : Fault) : Prop :=
  ∃ before call, calls = before ++ [call] ∧ call.answer = .error fault

/-- All attempts for one of the targets have met with conflicts, the last of them just now. -/
def UsesUp (targets : List String) (calls : List Answered) (fault : Fault) : Prop :=
  ∃ target ∈ targets, fault = .cloneAttemptsExhausted target maxCloneAttempts ∧
    ∃ before source, ∃ conflicts : List Conflict, ∃ number taken,
      conflicts.length + 1 = maxCloneAttempts ∧ taken.kind = .duplicateVariantNum ∧
      calls = before ++ (conflicts.flatMap (·.asked source target) ++
        [⟨.clone source number target, .error taken⟩])

/-- The questions of a session that clones to some targets, and what comes of it. -/
structure KeepsProtocol (source : String) (targets : List String) (overwrite : Bool)
    (calls : List Answered) (result : Except Fault Unit) : Prop where
  /-- The variants are listed, and if the source is among them then the targets are handled. -/
  opens : ∃ answer later, calls = ⟨.list false, answer⟩ :: later ∧
    GoesOn source targets overwrite answer later result
  /-- No other question is for a list that need not be fresh. -/
  once : ∀ before call after, calls = before ++ call :: after → before ≠ [] →
    call.query ≠ .list false
  /-- Each number that is tried is the lowest that is free, if any is. -/
  lowest : ∀ before sourceNumber number name answer after,
    calls = before ++ ⟨.clone sourceNumber number name, answer⟩ :: after →
    (∃ free, free ∉ VariantInfo.numbers (learnt [] before)) →
    number ∉ VariantInfo.numbers (learnt [] before) ∧
      ∀ lower < number, lower ∈ VariantInfo.numbers (learnt [] before)
  /-- A fault that is no conflict is the last answer, and what the call comes to. -/
  faults : ∀ before call after fault, calls = before ++ call :: after →
    call.answer = .error fault → call.IsConflict ∨ after = [] ∧ result = .error fault
  /-- A failed clone is what the registry has answered last, or the attempts for one target are
  used up. -/
  exhausted : ∀ fault, result = .error fault → fault.kind = .cloneFailed →
    EndsIn calls fault ∨ UsesUp targets calls fault

/-! ### One question after the other -/

/-- The question fits in with the list to work from, with what is asked later, and with what comes
of it all. -/
structure Answered.Fits (known : List VariantInfo) (later : List Answered)
    (result : Except Fault Unit) (call : Answered) : Prop where
  fresh : call.query ≠ .list false
  lowest : ∀ source number name, call.query = .clone source number name →
    number = VariantInfo.lowestFree known
  fault : ∀ fault, call.answer = .error fault →
    call.IsConflict ∨ later = [] ∧ result = .error fault

/-- Each of some questions fits in. -/
def Orderly (result : Except Fault Unit) : List VariantInfo → List Answered → Prop
  | _, [] => True
  | known, call :: later => call.Fits known later result ∧ Orderly result (call.learn known) later

section Orderly

variable {known : List VariantInfo} {calls later before after : List Answered} {call : Answered}
  {result : Except Fault Unit}

/-- Where all is well, it is the later questions that matter. -/
theorem Orderly.append (h : Orderly (.ok ()) known calls)
    (hlater : Orderly result (learnt known calls) later) :
    Orderly result known (calls ++ later) := by
  induction calls generalizing known with
  | nil => exact hlater
  | cons call calls ih =>
    obtain ⟨⟨hfresh, hlowest, hfault⟩, hrest⟩ := h
    refine ⟨⟨hfresh, hlowest, fun fault hanswer => .inl ?_⟩, ih hrest hlater⟩
    refine (hfault fault hanswer).resolve_right ?_
    rintro ⟨_, hok⟩
    cases hok

theorem Orderly.fits (h : Orderly result known (before ++ call :: after)) :
    call.Fits (learnt known before) after result := by
  induction before generalizing known with
  | nil => exact h.1
  | cons first before ih => exact ih h.2

end Orderly

/-! ### How the attempts are used up -/

section Exhausted

variable {source : UInt32} {overwrite : Bool} {target : String} {targets : List String}
  {known : List VariantInfo} {calls : List Answered} {fault : Fault}

theorem EndsIn.append (h : EndsIn calls fault) (earlier : List Answered) :
    EndsIn (earlier ++ calls) fault := by
  obtain ⟨before, call, rfl, hfault⟩ := h
  exact ⟨earlier ++ before, call, (List.append_assoc _ _ _).symm, hfault⟩

theorem UsesUp.append (h : UsesUp targets calls fault) (earlier : List Answered) :
    UsesUp targets (earlier ++ calls) fault := by
  obtain ⟨target, htarget, hfault, before, source, conflicts, number, taken, hall, hkind, rfl⟩ := h
  exact ⟨target, htarget, hfault, earlier ++ before, source, conflicts, number, taken, hall, hkind,
    (List.append_assoc _ _ _).symm⟩

theorem EndsAttempts.exhausts {conflicts : List Conflict} {final : List Answered}
    (h : EndsAttempts source target conflicts.length final (.error fault))
    (htarget : target ∈ targets) :
    EndsIn (conflicts.flatMap (·.asked source target) ++ final) fault ∨
      UsesUp targets (conflicts.flatMap (·.asked source target) ++ final) fault := by
  cases h with
  | refused => exact .inl (EndsIn.append ⟨[], _, rfl, rfl⟩ _)
  | unlisted => exact .inl (EndsIn.append ⟨[_], _, rfl, rfl⟩ _)
  | exhausted hkind hlast =>
    exact .inr ⟨target, htarget, rfl, [], source, conflicts, _, _, hlast, hkind, rfl⟩

theorem Handles.exhausts (h : Handles source overwrite known target calls (.error fault))
    (hkind : fault.kind = .cloneFailed) (htarget : target ∈ targets) :
    EndsIn calls fault ∨ UsesUp targets calls fault := by
  cases h with
  | kept | itself | guarded => cases hkind
  | undeleted => exact .inl ⟨[], _, rfl, rfl⟩
  | replaced _ _ _ _ _ hlast =>
    exact (hlast.exhausts htarget).imp (EndsIn.append · [_]) (UsesUp.append · [_])
  | new _ _ hlast => exact hlast.exhausts htarget

theorem HandlesAll.exhausts (h : HandlesAll source overwrite known targets calls (.error fault))
    (hkind : fault.kind = .cloneFailed) : EndsIn calls fault ∨ UsesUp targets calls fault := by
  generalize hresult : Except.error fault = result at h
  induction h with
  | finished => cases hresult
  | failed htarget =>
    cases hresult
    exact htarget.exhausts hkind List.mem_cons_self
  | @next _ _ _ calls _ _ _ _ ih =>
    refine (ih hresult).imp (EndsIn.append · calls) fun hused => ?_
    obtain ⟨other, hother, hrest⟩ := hused.append calls
    exact ⟨other, List.mem_cons_of_mem _ hother, hrest⟩

end Exhausted

/-- Questions that go on after the first list, each of which fits in, keep to the protocol. -/
theorem GoesOn.keepsProtocol {source : String} {targets : List String} {overwrite : Bool}
    {later : List Answered} {result : Except Fault Unit} {answer : Except Fault (List VariantInfo)}
    (h : GoesOn source targets overwrite answer later result)
    (horderly : Orderly result (Answered.learn [] ⟨.list false, answer⟩) later) :
    KeepsProtocol source targets overwrite (⟨.list false, answer⟩ :: later) result where
  opens := ⟨answer, later, rfl, h⟩
  once := by
    rintro (_ | ⟨first, before⟩) call after hcalls hbefore
    · exact absurd rfl hbefore
    · obtain ⟨rfl, rfl⟩ := List.cons.inj hcalls
      exact horderly.fits.fresh
  lowest := by
    rintro (_ | ⟨first, before⟩) sourceNumber number name answer after hcalls hfree
    · cases hcalls
    · obtain ⟨rfl, rfl⟩ := List.cons.inj hcalls
      obtain rfl := horderly.fits.lowest sourceNumber number name rfl
      obtain ⟨hunused, hbelow, _⟩ := VariantInfo.lowestFree_spec hfree
      exact ⟨hunused, hbelow⟩
  faults := by
    rintro (_ | ⟨first, before⟩) call after fault hcalls hfault
    · cases hcalls
      cases h with
      | unlisted =>
        cases hfault
        exact .inr ⟨rfl, rfl⟩
      | unknown | went => cases hfault
    · obtain ⟨rfl, rfl⟩ := List.cons.inj hcalls
      exact horderly.fits.fault fault hfault
  exhausted := by
    rintro fault hfault hkind
    cases h with
    | unlisted =>
      cases hfault
      exact .inl ⟨[], _, rfl, rfl⟩
    | unknown =>
      cases hfault
      cases hkind
    | went _ hall =>
      rw [hfault] at hall
      exact (hall.exhausts hkind).imp (EndsIn.append · [_]) (UsesUp.append · [_])

namespace Managing

open Dialogue Session VariantInfo

section Answers

variable {σ : Type} {server : Server registryProtocol σ} {state after : σ} {said later : Said σ}

/-- The question that was asked, if it was one, with its answer. -/
def answered? (server : Server registryProtocol σ) : Exchange registryProtocol σ → Option Answered
  | .question query state => some ⟨query, (server.answer query state).1⟩
  | .notice _ => none

/-- The questions that were asked, with their answers. -/
def answersIn (server : Server registryProtocol σ) (said : Said σ) : List Answered :=
  said.filterMap (answered? server)

@[simp] theorem answersIn_nil : answersIn server [] = [] := rfl

@[simp] theorem answersIn_append :
    answersIn server (said ++ later) = answersIn server said ++ answersIn server later :=
  List.filterMap_append

@[simp] theorem answersIn_notice (event : VariantEvent) :
    answersIn server (.notice event :: said) = answersIn server said := rfl

theorem answersIn_question {query : RegistryQuery} {answer : Except Fault query.Answer}
    (h : server.answer query state = (answer, after)) :
    answersIn server (.question query state :: said) =
      ⟨query, answer⟩ :: answersIn server said := by
  change Answered.mk query (server.answer query state).1 :: answersIn server said = _
  rw [h]

theorem answersIn_relisted {middle : σ} {source number : UInt32} {target : String} {fault : Fault}
    {answer : Except Fault (List VariantInfo)}
    (hclone : server.answer (.clone source number target) state = (.error fault, after))
    (hlist : server.answer (.list true) after = (answer, middle)) :
    answersIn server (.question (.clone source number target) state ::
        .question (.list true) after :: said) =
      [⟨.clone source number target, .error fault⟩, ⟨.list true, answer⟩] ++
        answersIn server said := by
  rw [answersIn_question hclone, answersIn_question hlist]
  rfl

end Answers

/-! ### Cloning keeps to the protocol -/

section Protocol

variable {σ : Type} {server : Server registryProtocol σ} {source : String} {target : String}
  {targets : List String} {sourceNumber : UInt32} {overwrite : Bool} {attempts : Nat}
  {infos : List VariantInfo} {context context' : Context} {state last : σ} {said : Said σ}

theorem fits_clone {answer : Except Fault Unit} {later : List Answered}
    {result : Except Fault Unit}
    (hfault : ∀ fault, answer = .error fault →
      fault.kind = .duplicateVariantNum ∨ later = [] ∧ result = .error fault) :
    Answered.Fits infos later result ⟨.clone sourceNumber (lowestFree infos) target, answer⟩ where
  fresh := nofun
  lowest := fun _ _ _ h => by cases h; rfl
  fault := fun fault hanswer => by
    obtain rfl : answer = .error fault := hanswer
    exact (hfault fault rfl).imp_left fun hkind => ⟨_, _, _, _, rfl, hkind⟩

/-- A conflict fits in, whatever comes after it. -/
theorem fits_conflict {fault : Fault} {later : List Answered} {result : Except Fault Unit}
    (hkind : fault.kind = .duplicateVariantNum) :
    Answered.Fits infos later result
      ⟨.clone sourceNumber (lowestFree infos) target, .error fault⟩ :=
  fits_clone fun other hother => by
    cases hother
    exact .inl hkind

theorem fits_plain {call : Answered} {later : List Answered} {result : Except Fault Unit}
    (hfresh : call.query ≠ .list false)
    (hplain : ∀ source number name, call.query ≠ .clone source number name)
    (hfault : ∀ fault, call.answer = .error fault → later = [] ∧ result = .error fault) :
    call.Fits infos later result where
  fresh := hfresh
  lowest := fun source number name h => absurd h (hplain source number name)
  fault := fun fault hanswer => .inr (hfault fault hanswer)

/-- Numbers are tried in order, and the list that is left is the one that was learnt. -/
theorem Attempts.orderly {result : Except Fault (UInt32 × List VariantInfo)}
    (h : Attempts server sourceNumber target attempts infos state result last said) :
    Orderly (result.map fun _ => ()) infos (answersIn server said) ∧
      ∀ number listed, result = .ok (number, listed) →
        learnt infos (answersIn server said) = listed := by
  induction h with
  | cloned hclone =>
    rw [answersIn_question hclone]
    refine ⟨⟨fits_clone nofun, trivial⟩, fun number listed hlisted => ?_⟩
    cases hlisted
    rfl
  | refused hclone =>
    rw [answersIn_question hclone]
    refine ⟨⟨fits_clone fun fault hfault => .inr ⟨rfl, ?_⟩, trivial⟩, nofun⟩
    cases hfault
    rfl
  | exhausted hclone hkind =>
    rw [answersIn_question hclone]
    exact ⟨⟨fits_conflict hkind, trivial⟩, nofun⟩
  | unlisted hclone hkind hlist =>
    rw [answersIn_question hclone, answersIn_question hlist]
    refine ⟨⟨fits_conflict hkind, fits_plain nofun nofun fun other hother => ⟨rfl, ?_⟩, trivial⟩,
      nofun⟩
    cases hother
    rfl
  | again hclone hkind hlist _ ih =>
    rw [answersIn_question hclone, answersIn_question hlist]
    exact ⟨⟨fits_conflict hkind, fits_plain nofun nofun nofun, ih.1⟩, ih.2⟩

/-- Attempts are some conflicts and what ends them. -/
theorem Attempts.ends {result : Except Fault (UInt32 × List VariantInfo)}
    (h : Attempts server sourceNumber target attempts infos state result last said)
    (hattempts : attempts ≤ maxCloneAttempts) :
    ∃ conflicts : List Conflict, ∃ final, conflicts.length < attempts ∧
      answersIn server said = conflicts.flatMap (·.asked sourceNumber target) ++ final ∧
      EndsAttempts sourceNumber target (maxCloneAttempts - attempts + conflicts.length) final
        (result.map fun _ => ()) := by
  induction h with
  | cloned hclone =>
    exact ⟨[], _, Nat.succ_pos _, answersIn_question hclone, .granted⟩
  | refused hclone hkind =>
    exact ⟨[], _, Nat.succ_pos _, answersIn_question hclone, .refused hkind⟩
  | exhausted hclone hkind =>
    exact ⟨[], _, Nat.succ_pos _, answersIn_question hclone, .exhausted hkind rfl⟩
  | unlisted hclone hkind hlist =>
    refine ⟨[], _, Nat.succ_pos _, answersIn_relisted hclone hlist, .unlisted hkind ?_⟩
    rw [List.length_nil]
    omega
  | @again attempts infos fresh _ _ _ _ _ _ _ hclone hkind hlist _ ih =>
    obtain ⟨conflicts, final, hfew, hasked, hends⟩ := ih (by omega)
    let conflict : Conflict := ⟨lowestFree infos, _, hkind, fresh⟩
    refine ⟨conflict :: conflicts, final, Nat.succ_lt_succ hfew, ?_, ?_⟩
    · rw [answersIn_relisted hclone hlist, hasked, List.flatMap_cons, List.append_assoc]
      rfl
    -- one conflict more for one attempt less
    · have htaken : maxCloneAttempts - (attempts + 2) + (conflict :: conflicts).length =
          maxCloneAttempts - (attempts + 1) + conflicts.length := by
        rw [List.length_cons]
        omega
      rw [htaken]
      exact hends

theorem Attempts.ends_of_max {result : Except Fault (UInt32 × List VariantInfo)}
    (h : Attempts server sourceNumber target maxCloneAttempts infos state result last said) :
    ∃ conflicts : List Conflict, ∃ final, conflicts.length < maxCloneAttempts ∧
      answersIn server said = conflicts.flatMap (·.asked sourceNumber target) ++ final ∧
      EndsAttempts sourceNumber target conflicts.length final (result.map fun _ => ()) := by
  simpa only [Nat.sub_self, Nat.zero_add] using h.ends (Nat.le_refl _)

/-- What is asked in a round is what is asked for its target. -/
theorem Round.handles {result : Except Fault (List VariantInfo)}
    (h : Round server source sourceNumber overwrite target infos context state result context' last
      said) :
    Handles sourceNumber overwrite infos target (answersIn server said)
      (result.map fun _ => ()) := by
  cases h with
  | created hnew hattempts =>
    obtain ⟨conflicts, final, hfew, hasked, hends⟩ := hattempts.ends_of_max
    rw [answersIn_append, hasked, answersIn_notice, answersIn_nil, List.append_nil]
    exact .new hnew hfew hends
  | uncreated hnew hattempts =>
    obtain ⟨conflicts, final, hfew, hasked, hends⟩ := hattempts.ends_of_max
    rw [hasked]
    exact .new hnew hfew hends
  | kept hfound hkeep => exact .kept hfound hkeep
  | itself hfound hoverwrite hitself => exact .itself hfound hoverwrite hitself
  | guarded hfound hoverwrite hother hinitial => exact .guarded hfound hoverwrite hother hinitial
  | undeleted hfound hoverwrite hother hinitial hdelete =>
    rw [answersIn_question hdelete]
    exact .undeleted hfound hoverwrite hother hinitial
  | overwritten hfound hoverwrite hother hinitial hdelete hattempts =>
    obtain ⟨conflicts, final, hfew, hasked, hends⟩ := hattempts.ends_of_max
    rw [answersIn_append, answersIn_question hdelete, hasked, answersIn_notice, answersIn_nil,
      List.append_nil]
    exact .replaced hfound hoverwrite hother hinitial hfew hends
  | lost hfound hoverwrite hother hinitial hdelete hattempts =>
    obtain ⟨conflicts, final, hfew, hasked, hends⟩ := hattempts.ends_of_max
    rw [answersIn_question hdelete, hasked]
    exact .replaced hfound hoverwrite hother hinitial hfew hends

theorem Round.orderly {result : Except Fault (List VariantInfo)}
    (h : Round server source sourceNumber overwrite target infos context state result context' last
      said) :
    Orderly (result.map fun _ => ()) infos (answersIn server said) ∧
      ∀ listed, result = .ok listed → learnt infos (answersIn server said) = listed := by
  cases h with
  | created _ hattempts =>
    obtain ⟨horderly, hlearnt⟩ := hattempts.orderly
    rw [answersIn_append, answersIn_notice, answersIn_nil, List.append_nil]
    refine ⟨horderly, fun listed hlisted => ?_⟩
    cases hlisted
    exact hlearnt _ _ rfl
  | uncreated _ hattempts => exact ⟨hattempts.orderly.1, nofun⟩
  | kept | itself | guarded => exact ⟨trivial, nofun⟩
  | undeleted _ _ _ _ hdelete =>
    rw [answersIn_question hdelete]
    refine ⟨⟨fits_plain nofun nofun fun fault hfault => ⟨rfl, ?_⟩, trivial⟩, nofun⟩
    cases hfault
    rfl
  | overwritten _ _ _ _ hdelete hattempts =>
    obtain ⟨horderly, hlearnt⟩ := hattempts.orderly
    rw [answersIn_append, answersIn_question hdelete, answersIn_notice, answersIn_nil,
      List.append_nil]
    refine ⟨⟨fits_plain nofun nofun nofun, horderly⟩, fun listed hlisted => ?_⟩
    cases hlisted
    exact hlearnt _ _ rfl
  | lost _ _ _ _ hdelete hattempts =>
    rw [answersIn_question hdelete]
    exact ⟨⟨fits_plain nofun nofun nofun, hattempts.orderly.1⟩, nofun⟩

/-- What is asked in some rounds is what is asked for their targets. -/
theorem Rounds.handles {result : Except Fault (List VariantInfo)}
    (h : Rounds server source sourceNumber overwrite targets infos context state result context'
      last said) :
    HandlesAll sourceNumber overwrite infos targets (answersIn server said)
        (result.map fun _ => ()) ∧
      Orderly (result.map fun _ => ()) infos (answersIn server said) := by
  induction h with
  | finished => exact ⟨.finished, trivial⟩
  | failed hround => exact ⟨.failed hround.handles, hround.orderly.1⟩
  | next hround _ ih =>
    obtain ⟨horderly, hlearnt⟩ := hround.orderly
    rw [answersIn_append]
    rw [← hlearnt _ rfl] at ih
    exact ⟨.next hround.handles ih.1, horderly.append ih.2⟩

theorem Cloning.keepsProtocol {result : Except Fault Unit} (htargets : targets ≠ [])
    (h : Cloning server source targets overwrite context state result context' last said) :
    KeepsProtocol source targets overwrite (answersIn server said) result := by
  cases h with
  | untargeted hnone => exact absurd hnone htargets
  | unlisted _ hlist =>
    rw [answersIn_question hlist]
    exact GoesOn.unlisted.keepsProtocol trivial
  | unknown _ hlist hsource =>
    obtain ⟨hnone, rfl⟩ := numberOf_eq_error_iff.mp hsource
    rw [answersIn_question hlist]
    exact (GoesOn.unknown hnone).keepsProtocol trivial
  | went _ hlist hsource hrounds =>
    obtain ⟨info, hfind, rfl⟩ := numberOf_eq_ok_iff.mp hsource
    obtain ⟨hall, horderly⟩ := hrounds.handles
    rw [answersIn_question hlist]
    exact (GoesOn.went hfind hall).keepsProtocol horderly

/-- Whatever a registry answers, a session that clones to some targets keeps to the protocol. -/
theorem clone_keeps_protocol (server : Server registryProtocol σ) (source : String)
    (targets : List String) (overwrite : Bool) (context : Context) (state : σ)
    (htargets : targets ≠ []) :
    let session := (clone source targets overwrite).start context
    KeepsProtocol source targets overwrite (answersIn server (session.transcript server state))
      (session.run server state).1.1 :=
  (cloning_clone server source targets overwrite context state).keepsProtocol htargets

/-- A registry that lists a variant twice, deletes what it is asked to, and takes every number. -/
def contrary : Server registryProtocol Unit where
  answer query state :=
    (match query with
      | .list _ => .ok [⟨0, "InitialVariant"⟩, ⟨1, "mine"⟩, ⟨1, "mine"⟩]
      | .clone _ _ _ => .error (.reported .duplicateVariantNum "Taken.")
      | .delete _ => .ok (), state)
  hear _ state := state

/-- Number one is tried as long as it is not listed, and then number two; the third conflict is the
last. -/
theorem clone_keeps_protocol_contrary :
    let session := (clone "InitialVariant" ["mine", "other"] true).start {}
    let calls := answersIn contrary (session.transcript contrary ())
    let listed : List VariantInfo := [⟨0, "InitialVariant"⟩, ⟨1, "mine"⟩, ⟨1, "mine"⟩]
    let taken : Except Fault Unit := .error (.reported .duplicateVariantNum "Taken.")
    calls = [⟨.list false, .ok listed⟩, ⟨.delete 1, .ok ()⟩, ⟨.clone 0 1 "mine", taken⟩,
        ⟨.list true, .ok listed⟩, ⟨.clone 0 2 "mine", taken⟩, ⟨.list true, .ok listed⟩,
        ⟨.clone 0 2 "mine", taken⟩] ∧
      ["mine", "other"] ≠ [] ∧
      KeepsProtocol "InitialVariant" ["mine", "other"] true calls
        (.error (.cloneAttemptsExhausted "mine" 3)) :=
  ⟨rfl, by decide, clone_keeps_protocol contrary "InitialVariant" ["mine", "other"] true {} ()
    (by decide)⟩

end Protocol

end Managing

end Switchyard
