import Switchyard.Proofs.Dialogue.Session
import Switchyard.Variant.Manager

/-!
How cloning and removing can go, with any registry behind them.

To clone is to list the variants once and then to go round the targets, one after the other. A round
is refused without a question, or it deletes the variant that it replaces, if there is one, and
tries numbers for the clone until one is taken, the clone is refused for another reason, or the
attempts are used up. `Attempts`, `Round`, `Rounds`, `Cloning` and `Removal` list the ways in which
this goes, each with what comes of it, the context and the registry afterwards, and all that is
said. Facts about sessions, alone or among others, follow from these cases.
-/

namespace Switchyard

namespace Managing

open Dialogue Session VariantInfo

/-! ### Commands as dialogues -/

@[simp] theorem start_list (refresh : Bool) (context : Context) :
    (list refresh).start context =
      ask (p := registryProtocol) (.list refresh) fun answer => done (answer, context) := rfl

@[simp] theorem start_tryClone (source target : UInt32) (name : String) (context : Context) :
    (tryClone source target name).start context =
      ask (p := registryProtocol) (.clone source target name) fun answer =>
        done (.ok answer, context) := rfl

@[simp] theorem start_delete (number : UInt32) (context : Context) :
    (delete number).start context =
      ask (p := registryProtocol) (.delete number) fun answer => done (answer, context) := rfl

@[simp] theorem start_announce (event : VariantEvent) (context : Context) :
    (announce event).start context =
      tell (p := registryProtocol) event (done (.ok (), context)) := rfl

/-- Deleting a named variant, which is listed under some number. -/
theorem start_deleteNamed (name : String) (infos : List VariantInfo) (context : Context) :
    (deleteNamed name infos).start context =
      if name = initialVariantName then done (.error .initialVariantProtected, context)
      else match numberOf name infos with
        | .error fault => done (.error fault, context)
        | .ok number => ask (p := registryProtocol) (.delete number) fun
          | .error fault => done (.error fault, context)
          | .ok _ => done (.ok (number, infos.filter (·.number ≠ number)), context) := by
  unfold deleteNamed
  split
  · simp
  · cases h : numberOf name infos with
    | error fault => simp
    | ok number =>
      simp only [start_bind, start_lift, start_delete, start_pure, done_bind, ask_bind]
      congr 1
      funext answer
      cases answer <;> rfl

/-- Trying the lowest number that the list leaves free, with one attempt at least. -/
theorem start_cloneFree (source : UInt32) (name : String) (attempts : Nat)
    (infos : List VariantInfo) (context : Context) :
    (cloneFree source name (attempts + 1) infos).start context =
      ask (p := registryProtocol) (.clone source (lowestFree infos) name) fun
        | .ok _ =>
          done (.ok (lowestFree infos, infos ++ [⟨lowestFree infos, name⟩]), context)
        | .error fault =>
          if fault.kind ≠ .duplicateVariantNum then done (.error fault, context)
          else if attempts = 0 then
            done (.error (.cloneAttemptsExhausted name maxCloneAttempts), context)
          else ask (p := registryProtocol) (.list true) fun
            | .error fault => done (.error fault, context)
            | .ok infos => (cloneFree source name attempts infos).start context := by
  rw [cloneFree]
  simp only [start_bind, start_tryClone, ask_bind, done_bind]
  congr 1
  funext answer
  cases answer with
  | ok _ => rfl
  | error fault =>
    by_cases hkind : fault.kind = .duplicateVariantNum
    · by_cases hlast : attempts = 0
      · simp [hkind, hlast]
      · simp only [hkind, hlast]
        simp only [ne_eq, not_true_eq_false, reduceIte, start_bind, start_list, ask_bind,
          done_bind]
        congr 1
        funext answer
        cases answer <;> rfl
    · simp [hkind]

/-- One round: a target that is listed is deleted before it is cloned anew. -/
theorem start_cloneTarget (source : String) (sourceNumber : UInt32) (overwrite : Bool)
    (infos : List VariantInfo) (target : String) (context : Context) :
    (cloneTarget source sourceNumber overwrite infos target).start context =
      match find? target infos with
      | none => (cloneFree sourceNumber target maxCloneAttempts infos).start context >>= fun
        | (.error fault, context) => done (.error fault, context)
        | (.ok (_, infos), context) =>
          tell (p := registryProtocol) (.created source target) (done (.ok infos, context))
      | some existing =>
        if overwrite = false then done (.error (.variantExists target), context)
        else if existing.number = sourceNumber then
          done (.error (.overwriteSource target), context)
        else if target = initialVariantName then done (.error .initialVariantProtected, context)
        else ask (p := registryProtocol) (.delete existing.number) fun
          | .error fault => done (.error fault, context)
          | .ok _ =>
            (cloneFree sourceNumber target maxCloneAttempts
                (infos.filter (·.number ≠ existing.number))).start
              (if context.isWorkingOn existing.number then .unset else context) >>= fun
            | (.error fault, context) => done (.error fault, context)
            | (.ok (number, infos), after) =>
              tell (p := registryProtocol) (.overwritten source target) (done (.ok infos,
                if context.isWorkingOn existing.number then .workingOn number else after)) := by
  unfold cloneTarget
  cases hfind : find? target infos with
  | none =>
    simp only [start_bind, start_announce, start_pure, tell_bind, done_bind]
    congr 1
    funext outcome
    obtain ⟨_ | _, _⟩ := outcome <;> rfl
  | some existing =>
    have hnumber : numberOf target infos = .ok existing.number := by rw [numberOf, hfind]
    by_cases hoverwrite : overwrite = false
    · simp [hoverwrite]
    by_cases hsource : existing.number = sourceNumber
    · simp [hoverwrite, hsource]
    by_cases hinitial : target = initialVariantName
    · simp [hoverwrite, hsource, hinitial, start_deleteNamed]
    simp only [hoverwrite, hsource, hinitial, start_deleteNamed, hnumber, reduceIte, start_bind,
      start_get, ask_bind, done_bind]
    congr 1
    funext answer
    cases answer with
    | error fault => rfl
    | ok _ =>
      by_cases hworking : context.isWorkingOn existing.number = true
      · simp only [hworking, reduceIte, start_bind, start_set, start_announce, start_pure,
          tell_bind, done_bind]
        congr 1
        funext outcome
        obtain ⟨_ | _, _⟩ := outcome <;> rfl
      · simp only [hworking, Bool.false_eq_true, reduceIte, start_bind, start_announce, start_pure,
          tell_bind, done_bind]
        congr 1
        funext outcome
        obtain ⟨_ | _, _⟩ := outcome <;> rfl

/-- Going round the targets, until a round fails. -/
theorem start_rounds_cons (source : String) (sourceNumber : UInt32) (overwrite : Bool)
    (infos : List VariantInfo) (target : String) (targets : List String) (context : Context) :
    ((target :: targets).foldlM (cloneTarget source sourceNumber overwrite) infos).start context =
      (cloneTarget source sourceNumber overwrite infos target).start context >>= fun
        | (.error fault, context) => done (.error fault, context)
        | (.ok infos, context) =>
          (targets.foldlM (cloneTarget source sourceNumber overwrite) infos).start context := by
  rw [List.foldlM_cons, start_bind]
  congr 1
  funext outcome
  obtain ⟨_ | _, _⟩ := outcome <;> rfl

/-- Cloning: what the source is called is looked up in the first list only. -/
theorem start_clone (source : String) (targets : List String) (overwrite : Bool)
    (context : Context) :
    (clone source targets overwrite).start context =
      if targets = [] then done (.error .noCloneTargets, context)
      else ask (p := registryProtocol) (.list false) fun
        | .error fault => done (.error fault, context)
        | .ok infos => match numberOf source infos with
          | .error fault => done (.error fault, context)
          | .ok number =>
            (targets.foldlM (cloneTarget source number overwrite) infos).start context >>= fun
              | (result, context) => done (result.map fun _ => (), context) := by
  unfold clone
  cases targets with
  | nil => simp
  | cons target targets =>
    simp only [List.isEmpty_cons, Bool.false_eq_true, reduceIte, start_bind, start_list, ask_bind,
      done_bind, reduceCtorEq, discard, Functor.discard]
    congr 1
    funext answer
    cases answer with
    | error fault => rfl
    | ok infos =>
      dsimp only
      cases numberOf source infos with
      | error fault => rfl
      | ok number =>
        simp only [start_lift, done_bind]
        change Dialogue.bind _ _ = Dialogue.bind _ _
        congr 1
        funext outcome
        obtain ⟨_ | _, _⟩ := outcome <;> rfl

/-- Removing: the event is told before the context is left without a working variant. -/
theorem start_remove (name : String) (context : Context) :
    (remove name).start context =
      ask (p := registryProtocol) (.list false) fun
        | .error fault => done (.error fault, context)
        | .ok infos =>
          if name = initialVariantName then done (.error .initialVariantProtected, context)
          else match numberOf name infos with
            | .error fault => done (.error fault, context)
            | .ok number => ask (p := registryProtocol) (.delete number) fun
              | .error fault => done (.error fault, context)
              | .ok _ => tell (p := registryProtocol) (.removed name)
                (done (.ok (), if context.isWorkingOn number then .unset else context)) := by
  unfold remove
  simp only [start_bind, start_list, ask_bind, done_bind, start_deleteNamed]
  congr 1
  funext answer
  cases answer with
  | error fault => rfl
  | ok infos =>
    dsimp only
    split
    · rfl
    cases numberOf name infos with
    | error fault => rfl
    | ok number =>
      simp only [ask_bind]
      congr 1
      funext answer
      cases answer with
      | error fault => rfl
      | ok _ =>
        simp only [done_bind, start_announce, tell_bind, start_get]
        split <;> rfl

/-! ### The ways in which they go -/

variable {σ : Type}

/-- What is said between a session and a registry. -/
abbrev Said (σ : Type) := List (Exchange registryProtocol σ)

/-- Trying numbers for a clone, with some attempts left and a list to pick the numbers from. -/
inductive Attempts (server : Server registryProtocol σ) (source : UInt32) (name : String) :
    Nat → List VariantInfo → σ → Except Fault (UInt32 × List VariantInfo) → σ → Said σ → Prop
  | cloned {attempts : Nat} {infos : List VariantInfo} {state after : σ}
      (hclone : server.answer (.clone source (lowestFree infos) name) state = (.ok (), after)) :
    Attempts server source name (attempts + 1) infos state
      (.ok (lowestFree infos, infos ++ [⟨lowestFree infos, name⟩])) after
      [.question (.clone source (lowestFree infos) name) state]
  | refused {attempts : Nat} {infos : List VariantInfo} {state after : σ} {fault : Fault}
      (hclone : server.answer (.clone source (lowestFree infos) name) state =
        (.error fault, after))
      (hkind : fault.kind ≠ .duplicateVariantNum) :
    Attempts server source name (attempts + 1) infos state (.error fault) after
      [.question (.clone source (lowestFree infos) name) state]
  | exhausted {infos : List VariantInfo} {state after : σ} {fault : Fault}
      (hclone : server.answer (.clone source (lowestFree infos) name) state =
        (.error fault, after))
      (hkind : fault.kind = .duplicateVariantNum) :
    Attempts server source name 1 infos state
      (.error (.cloneAttemptsExhausted name maxCloneAttempts)) after
      [.question (.clone source (lowestFree infos) name) state]
  | unlisted {attempts : Nat} {infos : List VariantInfo} {state after last : σ}
      {fault fault' : Fault}
      (hclone : server.answer (.clone source (lowestFree infos) name) state =
        (.error fault, after))
      (hkind : fault.kind = .duplicateVariantNum)
      (hlist : server.answer (.list true) after = (.error fault', last)) :
    Attempts server source name (attempts + 2) infos state (.error fault') last
      [.question (.clone source (lowestFree infos) name) state, .question (.list true) after]
  | again {attempts : Nat} {infos fresh : List VariantInfo} {state after middle last : σ}
      {fault : Fault} {result : Except Fault (UInt32 × List VariantInfo)} {said : Said σ}
      (hclone : server.answer (.clone source (lowestFree infos) name) state =
        (.error fault, after))
      (hkind : fault.kind = .duplicateVariantNum)
      (hlist : server.answer (.list true) after = (.ok fresh, middle))
      (hrest : Attempts server source name (attempts + 1) fresh middle result last said) :
    Attempts server source name (attempts + 2) infos state result last
      (.question (.clone source (lowestFree infos) name) state ::
        .question (.list true) after :: said)

/-- One round of cloning: the list that it leaves, the context, the registry and what is said. -/
inductive Round (server : Server registryProtocol σ) (source : String) (sourceNumber : UInt32)
    (overwrite : Bool) (target : String) (infos : List VariantInfo) (context : Context)
    (state : σ) : Except Fault (List VariantInfo) → Context → σ → Said σ → Prop
  | created {number : UInt32} {listed : List VariantInfo} {after : σ} {said : Said σ}
      (hnew : find? target infos = none)
      (hattempts : Attempts server sourceNumber target maxCloneAttempts infos state
        (.ok (number, listed)) after said) :
    Round server source sourceNumber overwrite target infos context state (.ok listed) context
      (server.hear (.created source target) after) (said ++ [.notice (.created source target)])
  | uncreated {fault : Fault} {after : σ} {said : Said σ}
      (hnew : find? target infos = none)
      (hattempts : Attempts server sourceNumber target maxCloneAttempts infos state
        (.error fault) after said) :
    Round server source sourceNumber overwrite target infos context state (.error fault) context
      after said
  | kept {existing : VariantInfo} (hfound : find? target infos = some existing)
      (hkeep : overwrite = false) :
    Round server source sourceNumber overwrite target infos context state
      (.error (.variantExists target)) context state []
  | itself {existing : VariantInfo} (hfound : find? target infos = some existing)
      (hoverwrite : overwrite = true) (hitself : existing.number = sourceNumber) :
    Round server source sourceNumber overwrite target infos context state
      (.error (.overwriteSource target)) context state []
  | guarded {existing : VariantInfo} (hfound : find? target infos = some existing)
      (hoverwrite : overwrite = true) (hother : existing.number ≠ sourceNumber)
      (hinitial : target = initialVariantName) :
    Round server source sourceNumber overwrite target infos context state
      (.error .initialVariantProtected) context state []
  | undeleted {existing : VariantInfo} {fault : Fault} {after : σ}
      (hfound : find? target infos = some existing)
      (hoverwrite : overwrite = true) (hother : existing.number ≠ sourceNumber)
      (hinitial : target ≠ initialVariantName)
      (hdelete : server.answer (.delete existing.number) state = (.error fault, after)) :
    Round server source sourceNumber overwrite target infos context state (.error fault) context
      after [.question (.delete existing.number) state]
  | overwritten {existing : VariantInfo} {after last : σ} {number : UInt32}
      {listed : List VariantInfo} {said : Said σ}
      (hfound : find? target infos = some existing)
      (hoverwrite : overwrite = true) (hother : existing.number ≠ sourceNumber)
      (hinitial : target ≠ initialVariantName)
      (hdelete : server.answer (.delete existing.number) state = (.ok (), after))
      (hattempts : Attempts server sourceNumber target maxCloneAttempts
        (infos.filter (·.number ≠ existing.number)) after (.ok (number, listed)) last said) :
    Round server source sourceNumber overwrite target infos context state (.ok listed)
      (if context.isWorkingOn existing.number then .workingOn number else context)
      (server.hear (.overwritten source target) last)
      (.question (.delete existing.number) state :: said ++
        [.notice (.overwritten source target)])
  | lost {existing : VariantInfo} {fault : Fault} {after last : σ} {said : Said σ}
      (hfound : find? target infos = some existing)
      (hoverwrite : overwrite = true) (hother : existing.number ≠ sourceNumber)
      (hinitial : target ≠ initialVariantName)
      (hdelete : server.answer (.delete existing.number) state = (.ok (), after))
      (hattempts : Attempts server sourceNumber target maxCloneAttempts
        (infos.filter (·.number ≠ existing.number)) after (.error fault) last said) :
    Round server source sourceNumber overwrite target infos context state (.error fault)
      (if context.isWorkingOn existing.number then .unset else context) last
      (.question (.delete existing.number) state :: said)

/-- Going round the targets, until a round fails. -/
inductive Rounds (server : Server registryProtocol σ) (source : String) (sourceNumber : UInt32)
    (overwrite : Bool) : List String → List VariantInfo → Context → σ →
      Except Fault (List VariantInfo) → Context → σ → Said σ → Prop
  | finished {infos : List VariantInfo} {context : Context} {state : σ} :
    Rounds server source sourceNumber overwrite [] infos context state (.ok infos) context state []
  | failed {target : String} {targets : List String} {infos : List VariantInfo}
      {context context' : Context} {state after : σ} {fault : Fault} {said : Said σ}
      (hround : Round server source sourceNumber overwrite target infos context state
        (.error fault) context' after said) :
    Rounds server source sourceNumber overwrite (target :: targets) infos context state
      (.error fault) context' after said
  | next {target : String} {targets : List String} {infos listed : List VariantInfo}
      {context context' last' : Context} {state after last : σ} {said later : Said σ}
      {result : Except Fault (List VariantInfo)}
      (hround : Round server source sourceNumber overwrite target infos context state
        (.ok listed) context' after said)
      (hrest : Rounds server source sourceNumber overwrite targets listed context' after
        result last' last later) :
    Rounds server source sourceNumber overwrite (target :: targets) infos context state
      result last' last (said ++ later)

/-- Cloning to a list of targets. -/
inductive Cloning (server : Server registryProtocol σ) (source : String) (targets : List String)
    (overwrite : Bool) (context : Context) (state : σ) :
      Except Fault Unit → Context → σ → Said σ → Prop
  | untargeted (htargets : targets = []) :
    Cloning server source targets overwrite context state (.error .noCloneTargets) context state []
  | unlisted {fault : Fault} {after : σ} (htargets : targets ≠ [])
      (hlist : server.answer (.list false) state = (.error fault, after)) :
    Cloning server source targets overwrite context state (.error fault) context after
      [.question (.list false) state]
  | unknown {fault : Fault} {infos : List VariantInfo} {after : σ} (htargets : targets ≠ [])
      (hlist : server.answer (.list false) state = (.ok infos, after))
      (hsource : numberOf source infos = .error fault) :
    Cloning server source targets overwrite context state (.error fault) context after
      [.question (.list false) state]
  | went {infos : List VariantInfo} {number : UInt32} {after last : σ} {context' : Context}
      {result : Except Fault (List VariantInfo)} {said : Said σ} (htargets : targets ≠ [])
      (hlist : server.answer (.list false) state = (.ok infos, after))
      (hsource : numberOf source infos = .ok number)
      (hrounds : Rounds server source number overwrite targets infos context after
        result context' last said) :
    Cloning server source targets overwrite context state (result.map fun _ => ()) context' last
      (.question (.list false) state :: said)

/-- Removing a named variant. -/
inductive Removal (server : Server registryProtocol σ) (name : String) (context : Context)
    (state : σ) : Except Fault Unit → Context → σ → Said σ → Prop
  | unlisted {fault : Fault} {after : σ}
      (hlist : server.answer (.list false) state = (.error fault, after)) :
    Removal server name context state (.error fault) context after [.question (.list false) state]
  | guarded {infos : List VariantInfo} {after : σ}
      (hlist : server.answer (.list false) state = (.ok infos, after))
      (hinitial : name = initialVariantName) :
    Removal server name context state (.error .initialVariantProtected) context after
      [.question (.list false) state]
  | unknown {fault : Fault} {infos : List VariantInfo} {after : σ}
      (hlist : server.answer (.list false) state = (.ok infos, after))
      (hinitial : name ≠ initialVariantName) (hname : numberOf name infos = .error fault) :
    Removal server name context state (.error fault) context after [.question (.list false) state]
  | undeleted {fault : Fault} {infos : List VariantInfo} {number : UInt32} {after last : σ}
      (hlist : server.answer (.list false) state = (.ok infos, after))
      (hinitial : name ≠ initialVariantName) (hname : numberOf name infos = .ok number)
      (hdelete : server.answer (.delete number) after = (.error fault, last)) :
    Removal server name context state (.error fault) context last
      [.question (.list false) state, .question (.delete number) after]
  | removed {infos : List VariantInfo} {number : UInt32} {after last : σ}
      (hlist : server.answer (.list false) state = (.ok infos, after))
      (hinitial : name ≠ initialVariantName) (hname : numberOf name infos = .ok number)
      (hdelete : server.answer (.delete number) after = (.ok (), last)) :
    Removal server name context state (.ok ())
      (if context.isWorkingOn number then .unset else context) (server.hear (.removed name) last)
      [.question (.list false) state, .question (.delete number) after, .notice (.removed name)]

/-! ### Every command goes in one of these ways -/

/-- Attempts leave the context alone. -/
theorem attempts_cloneFree (server : Server registryProtocol σ) (source : UInt32) (name : String)
    (attempts : Nat) (infos : List VariantInfo) (context : Context) (state : σ) :
    let session := (cloneFree source name (attempts + 1) infos).start context
    ∃ result last said, session.run server state = ((result, context), last) ∧
      session.transcript server state = said ∧
      Attempts server source name (attempts + 1) infos state result last said := by
  induction attempts generalizing infos state with
  | zero =>
    dsimp only
    rw [start_cloneFree, run, transcript]
    rcases hclone : server.answer (.clone source (lowestFree infos) name) state with
      ⟨fault | ⟨⟩, after⟩
    · by_cases hkind : fault.kind = .duplicateVariantNum
      · exact ⟨_, _, _, by simp [hkind, run], by simp [hkind, transcript],
          .exhausted hclone hkind⟩
      · exact ⟨_, _, _, by simp [hkind, run], by simp [hkind, transcript], .refused hclone hkind⟩
    · exact ⟨_, _, _, rfl, rfl, .cloned hclone⟩
  | succ attempts ih =>
    dsimp only
    rw [start_cloneFree, run, transcript]
    rcases hclone : server.answer (.clone source (lowestFree infos) name) state with
      ⟨fault | ⟨⟩, after⟩
    · by_cases hkind : fault.kind = .duplicateVariantNum
      · rcases hlist : server.answer (.list true) after with ⟨fault' | fresh, middle⟩
        · exact ⟨_, _, _, by simp [hkind, run, hlist], by simp [hkind, transcript, hlist],
            .unlisted hclone hkind hlist⟩
        · obtain ⟨result, last, said, hrun, hsaid, hrest⟩ := ih fresh middle
          exact ⟨_, _, _, by simp [hkind, run, hlist, hrun],
            by simp [hkind, transcript, hlist, hsaid], .again hclone hkind hlist hrest⟩
      · exact ⟨_, _, _, by simp [hkind, run], by simp [hkind, transcript], .refused hclone hkind⟩
    · exact ⟨_, _, _, rfl, rfl, .cloned hclone⟩

theorem round_cloneTarget (server : Server registryProtocol σ) (source : String)
    (sourceNumber : UInt32) (overwrite : Bool) (infos : List VariantInfo) (target : String)
    (context : Context) (state : σ) :
    let session := (cloneTarget source sourceNumber overwrite infos target).start context
    Round server source sourceNumber overwrite target infos context state
      (session.run server state).1.1 (session.run server state).1.2 (session.run server state).2
      (session.transcript server state) := by
  have htries := fun infos context state =>
    attempts_cloneFree server sourceNumber target (maxCloneAttempts - 1) infos context state
  rw [show maxCloneAttempts - 1 + 1 = maxCloneAttempts from rfl] at htries
  dsimp only at htries ⊢
  rw [start_cloneTarget]
  cases hfind : find? target infos with
  | none =>
    obtain ⟨result, last, said, hrun, hsaid, hattempts⟩ := htries infos context state
    dsimp only
    rw [run_bind, transcript_bind, hrun, hsaid]
    rcases result with fault | ⟨number, listed⟩
    · simpa [run, transcript] using Round.uncreated hfind hattempts
    · exact .created hfind hattempts
  | some existing =>
    dsimp only
    split
    case isTrue hkeep => exact .kept hfind hkeep
    case isFalse hoverwrite =>
    rw [Bool.not_eq_false] at hoverwrite
    split
    case isTrue hitself => exact .itself hfind hoverwrite hitself
    case isFalse hother =>
    split
    case isTrue hinitial => exact .guarded hfind hoverwrite hother hinitial
    case isFalse hinitial =>
    rw [run, transcript]
    rcases hdelete : server.answer (.delete existing.number) state with ⟨fault | ⟨⟩, after⟩
    · exact .undeleted hfind hoverwrite hother hinitial hdelete
    obtain ⟨result, last, said, hrun, hsaid, hattempts⟩ :=
      htries (infos.filter (·.number ≠ existing.number))
        (if context.isWorkingOn existing.number then .unset else context) after
    dsimp only
    rw [run_bind, transcript_bind, hrun, hsaid]
    rcases result with fault | ⟨number, listed⟩
    · have hlost : Round server source sourceNumber overwrite target infos context state _ _ _ _ :=
        .lost hfind hoverwrite hother hinitial hdelete hattempts
      simpa [run, transcript] using hlost
    · have hdone : Round server source sourceNumber overwrite target infos context state _ _ _ _ :=
        .overwritten hfind hoverwrite hother hinitial hdelete hattempts
      by_cases hworking : context.isWorkingOn existing.number = true <;>
        simpa [run, transcript, hworking] using hdone

theorem rounds_foldlM (server : Server registryProtocol σ) (source : String)
    (sourceNumber : UInt32) (overwrite : Bool) (targets : List String) (infos : List VariantInfo)
    (context : Context) (state : σ) :
    let session := (targets.foldlM (cloneTarget source sourceNumber overwrite) infos).start context
    Rounds server source sourceNumber overwrite targets infos context state
      (session.run server state).1.1 (session.run server state).1.2 (session.run server state).2
      (session.transcript server state) := by
  induction targets generalizing infos context state with
  | nil => exact .finished
  | cons target targets ih =>
    have hround := round_cloneTarget server source sourceNumber overwrite infos target context state
    dsimp only at hround ih ⊢
    rw [start_rounds_cons, run_bind, transcript_bind]
    rcases hrun : ((cloneTarget source sourceNumber overwrite infos target).start context).run
      server state with ⟨⟨fault | listed, after⟩, last⟩ <;> rw [hrun] at hround
    · simpa [run, transcript] using Rounds.failed hround
    · exact .next hround (ih listed after last)

theorem cloning_clone (server : Server registryProtocol σ) (source : String)
    (targets : List String) (overwrite : Bool) (context : Context) (state : σ) :
    let session := (clone source targets overwrite).start context
    Cloning server source targets overwrite context state (session.run server state).1.1
      (session.run server state).1.2 (session.run server state).2
      (session.transcript server state) := by
  dsimp only
  rw [start_clone]
  split
  case isTrue htargets => exact .untargeted htargets
  case isFalse htargets =>
  rw [run, transcript]
  rcases hlist : server.answer (.list false) state with ⟨fault | infos, after⟩
  · exact .unlisted htargets hlist
  dsimp only
  cases hsource : numberOf source infos with
  | error fault => exact .unknown htargets hlist hsource
  | ok number =>
    have := Cloning.went htargets hlist hsource
      (rounds_foldlM server source number overwrite targets infos context after)
    simpa only [run_bind, transcript_bind, run, transcript, List.append_nil] using this

theorem removal_remove (server : Server registryProtocol σ) (name : String) (context : Context)
    (state : σ) :
    let session := (remove name).start context
    Removal server name context state (session.run server state).1.1
      (session.run server state).1.2 (session.run server state).2
      (session.transcript server state) := by
  dsimp only
  rw [start_remove, run, transcript]
  rcases hlist : server.answer (.list false) state with ⟨fault | infos, after⟩
  · exact .unlisted hlist
  dsimp only
  split
  case isTrue hinitial => exact .guarded hlist hinitial
  case isFalse hinitial =>
  cases hname : numberOf name infos with
  | error fault => exact .unknown hlist hinitial hname
  | ok number =>
    dsimp only
    rw [run, transcript]
    rcases hdelete : server.answer (.delete number) after with ⟨fault | ⟨⟩, last⟩
    · exact .undeleted hlist hinitial hname hdelete
    · exact .removed hlist hinitial hname hdelete

end Managing

end Switchyard
