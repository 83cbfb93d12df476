import Switchyard.Proofs.Store.Faltering
import Switchyard.Proofs.Store.Networks
import Switchyard.Proofs.Variant.Commands
import Switchyard.Proofs.Variant.Contested

/-!
Following the names of the variants by the events that are told.

One session is alone with a store, but it reaches the store over a connection on which any question
may fail without effect. Whoever knows the names at first and hears the events should know the names
ever after. An overwrite spoils this: it deletes a target before it clones it anew, and tells of
both at the end, so if the clone fails then the target is gone and nothing is told
(`overwrite_loses_silently`). Nothing else does: with the removals added that were not told of, the
events yield the names exactly, and such a removal is of one target of an overwriting clone that
fails (`events_mirror_names`).
-/

namespace Switchyard

/-- The names after an event, of which the names before it are known. -/
def VariantEvent.replay (names : Finset String) : VariantEvent → Finset String
  | created _ target => insert target names
  | overwritten _ _ => names
  | removed name => names.erase name

namespace Managing

open Dialogue Session VariantInfo Store Faltering

/-! ### What is told and what is not -/

/-- The name of the variant that was deleted, where the exchange is a deletion that was granted. -/
def deleted? : Exchange registryProtocol Faltering → Option String
  | .question (.delete number) state =>
    match (faltering.answer (.delete number) state).1 with
    | .ok _ => state.store.nameAt number
    | .error _ => none
  | _ => none

/-- The names of the variants that were deleted without anything being told thereafter. -/
def lostIn : Said Faltering → List String
  | [] => []
  | exchange :: later =>
    if later.filterMap Exchange.notice? = [] then (deleted? exchange).toList ++ lostIn later
    else lostIn later

/-- The events that were told, and after them the removals that were not. -/
def tally (said : Said Faltering) : List VariantEvent :=
  said.filterMap Exchange.notice? ++ (lostIn said).map .removed

/-- Nothing is deleted and nothing is told. -/
def Quiet (said : Said Faltering) : Prop :=
  ∀ exchange ∈ said, deleted? exchange = none ∧ exchange.notice? = none

variable {source : String} {target name : String} {targets : List String} {sourceNumber : UInt32}
  {overwrite : Bool} {infos listed : List VariantInfo} {context context' : Context}
  {state last : Faltering} {said later : Said Faltering}

theorem Quiet.notices (h : Quiet said) : said.filterMap Exchange.notice? = [] :=
  List.filterMap_eq_nil_iff.mpr fun exchange hexchange => (h exchange hexchange).2

theorem Quiet.lostIn (h : Quiet said) : lostIn said = [] := by
  induction said with
  | nil => rfl
  | cons exchange later ih =>
    have hlater := ih fun other hother => h other (List.mem_cons_of_mem _ hother)
    rw [Managing.lostIn, (h exchange List.mem_cons_self).1, hlater, Option.toList_none,
      List.append_nil, ite_self]

/-- Nothing is lost before an event. -/
theorem lostIn_told (said : Said Faltering) (event : VariantEvent) (later : Said Faltering) :
    lostIn (said ++ .notice event :: later) = lostIn later := by
  induction said with
  | nil =>
    rw [List.nil_append, lostIn]
    split <;> rfl
  | cons exchange said ih => rw [List.cons_append, lostIn, if_neg (by simp), ih]

theorem Attempts.quiet {attempts : Nat} {result : Except Fault (UInt32 × List VariantInfo)}
    (h : Attempts faltering sourceNumber target attempts infos state result last said) :
    Quiet said := by
  intro exchange hexchange
  obtain ⟨_, ⟨_, rfl⟩ | rfl⟩ := h.asks exchange hexchange <;> exact ⟨rfl, rfl⟩

/-- Attempts that succeed have entered the clone, and those that fail have left the store as it
was. -/
theorem Attempts.enters {attempts : Nat} {result : Except Fault (UInt32 × List VariantInfo)}
    (h : Attempts faltering sourceNumber target attempts infos state result last said)
    (hinfos : Exact infos state.store) :
    (∃ fault, result = .error fault ∧ last.store = state.store) ∨
      ∃ number listed variant, result = .ok (number, listed) ∧ variant.name = target ∧
        state.store.nameAt variant.number = none ∧
        (∀ other, state.store.nameAt other ≠ some target) ∧
        last.store = state.store.enter variant ∧ Exact listed last.store := by
  induction h with
  | cloned hclone =>
    obtain ⟨hfree, hnew, network, hentered⟩ := entered_of_cloned hclone
    refine .inr ⟨_, _, _, rfl, rfl, hfree, hnew, hentered, ?_⟩
    rw [hentered]
    exact @Exact.enter _ ⟨_, _, network⟩ _ hinfos hfree
  | refused hclone | exhausted hclone => exact .inl ⟨_, rfl, store_eq_of_error hclone⟩
  | unlisted hclone _ hlist =>
    exact .inl ⟨_, rfl, (store_eq_of_error hlist).trans (store_eq_of_error hclone)⟩
  | again hclone _ hlist _ ih =>
    obtain ⟨hfresh, hkept⟩ := infos_of_listed hlist
    rw [← hkept.trans (store_eq_of_error hclone)]
    apply ih
    rw [hfresh, hkept]
    exact exact_infos _

/-- With the removals that were not told of, the events that were account for all names; what is not
told of is one target of an overwriting clone that fails. -/
structure Tallies {α : Type} (overwrite : Bool) (targets : List String) (result : Except Fault α)
    (state last : Faltering) (said : Said Faltering) : Prop where
  distinct : last.store.NamesDistinct
  names_eq : last.store.names = (tally said).foldl VariantEvent.replay state.store.names
  lost : lostIn said = [] ∨ overwrite = true ∧ (∃ fault, result = .error fault) ∧
    ∃ target ∈ targets, lostIn said = [target]

theorem Quiet.tally (h : Quiet said) : tally said = [] := by
  rw [Managing.tally, h.notices, h.lostIn, List.map_nil, List.append_nil]

theorem tally_told (said : Said Faltering) (h : said.filterMap Exchange.notice? = [])
    (event : VariantEvent) :
    tally (said ++ [.notice event]) = [event] := by
  rw [tally, lostIn_told, List.filterMap_append, h]
  rfl

/-- A deletion that is granted is lost if it is not followed by any event. -/
theorem lostIn_deleted {number : UInt32} {after : Faltering}
    (hdelete : faltering.answer (.delete number) state = (.ok (), after))
    (hname : state.store.nameAt number = some name) (hlater : Quiet later) :
    lostIn (.question (.delete number) state :: later) = [name] := by
  rw [lostIn, if_pos hlater.notices, deleted?, hdelete, hname, hlater.lostIn]
  rfl

/-- What is said in a round that leaves the store alone. -/
theorem Tallies.of_quiet {α : Type} {result : Except Fault α} (hsaid : Quiet said)
    (hstore : last.store = state.store) (hdistinct : state.store.NamesDistinct) :
    Tallies overwrite targets result state last said :=
  ⟨hstore ▸ hdistinct, by rw [hsaid.tally, hstore]; rfl, .inl hsaid.lostIn⟩

theorem quiet_undeleted {number : UInt32} {fault : Fault} {after : Faltering}
    (hdelete : faltering.answer (.delete number) state = (.error fault, after)) :
    Quiet [.question (.delete number) state] := by
  intro exchange hexchange
  rw [List.mem_singleton.mp hexchange, deleted?, hdelete]
  exact ⟨rfl, rfl⟩

/-- A round that succeeds ends with the one event that it tells. -/
theorem Round.tallies {result : Except Fault (List VariantInfo)}
    (h : Round faltering source sourceNumber overwrite target infos context state result context'
      last said) (hinfos : Exact infos state.store) (hdistinct : state.store.NamesDistinct) :
    Tallies overwrite [target] result state last said ∧ ∀ listed, result = .ok listed →
      Exact listed last.store ∧ ∃ earlier event, said = earlier ++ [.notice event] := by
  cases h with
  | created _ hattempts =>
    have hquiet := hattempts.quiet
    obtain ⟨_, h, _⟩ | ⟨_, listed, variant, hlisted, rfl, hfree, hnew, hstore, hexact⟩ :=
      hattempts.enters hinfos
    · cases h
    cases hlisted
    refine ⟨⟨?_, ?_, .inl (lostIn_told _ _ [])⟩, fun _ h => ⟨by cases h; exact hexact, _, _, rfl⟩⟩
    · exact hstore ▸ hdistinct.enter (suits_of_new hfree hnew)
    · rw [tally_told _ hquiet.notices]
      exact (congrArg Store.names hstore).trans (names_enter hfree)
  | uncreated _ hattempts =>
    obtain ⟨_, _, hstore⟩ | ⟨_, _, _, h, _⟩ := hattempts.enters hinfos
    · exact ⟨.of_quiet hattempts.quiet hstore hdistinct, nofun⟩
    · cases h
  | kept | itself | guarded => exact ⟨.of_quiet nofun rfl hdistinct, nofun⟩
  | undeleted _ _ _ _ hdelete =>
    exact ⟨.of_quiet (quiet_undeleted hdelete) (store_eq_of_error hdelete) hdistinct, nofun⟩
  | @overwritten existing after _ _ _ said hfound _ _ _ hdelete hattempts =>
    obtain ⟨network, hheld⟩ := hinfos.of_find? hfound
    have hname := nameAt_of_variant? hheld
    have hquiet := hattempts.quiet
    have hwithout := without_of_deleted hdelete
    have hdistinct' : after.store.NamesDistinct := hwithout ▸ hdistinct.without existing.number
    obtain ⟨_, h, _⟩ | ⟨_, listed, variant, hlisted, hvariant, hfree, hnew, hstore, hexact⟩ :=
      hattempts.enters (hwithout ▸ hinfos.without existing.number)
    · cases h
    cases hlisted
    refine ⟨⟨?_, ?_, .inl (lostIn_told (.question (.delete existing.number) state :: said) _ [])⟩,
      fun _ h => ⟨by cases h; exact hexact, _ :: _, _, rfl⟩⟩
    · exact hstore ▸ hdistinct'.enter (suits_of_new hfree (hvariant ▸ hnew))
    · rw [tally_told (.question (.delete existing.number) state :: said) hquiet.notices]
      refine (congrArg Store.names hstore).trans ((names_enter hfree).trans ?_)
      rw [hwithout, names_without hdistinct hname, hvariant]
      exact Finset.insert_erase (mem_names.mpr ⟨_, hname⟩)
  | @lost existing _ _ _ said hfound hoverwrite _ _ hdelete hattempts =>
    obtain ⟨network, hheld⟩ := hinfos.of_find? hfound
    have hname := nameAt_of_variant? hheld
    have hwithout := without_of_deleted hdelete
    obtain ⟨_, _, hstore⟩ | ⟨_, _, _, h, _⟩ :=
      hattempts.enters (hwithout ▸ hinfos.without existing.number)
    · have hlost := lostIn_deleted hdelete hname hattempts.quiet
      have htarget : target ∈ [target] := List.mem_singleton_self _
      refine ⟨⟨?_, ?_, .inr ⟨hoverwrite, ⟨_, rfl⟩, target, htarget, hlost⟩⟩, nofun⟩
      · rw [hstore, hwithout]
        exact hdistinct.without _
      · rw [tally, hlost, List.filterMap_cons_none rfl, hattempts.quiet.notices, hstore, hwithout]
        exact names_without hdistinct hname
    · cases h

theorem Rounds.tallies {result : Except Fault (List VariantInfo)}
    (h : Rounds faltering source sourceNumber overwrite targets infos context state result context'
      last said) (hinfos : Exact infos state.store) (hdistinct : state.store.NamesDistinct) :
    Tallies overwrite targets result state last said := by
  induction h with
  | finished => exact .of_quiet nofun rfl hdistinct
  | failed hround =>
    obtain ⟨⟨hkept, hnames, hlost⟩, _⟩ := hround.tallies hinfos hdistinct
    refine ⟨hkept, hnames, hlost.imp_right fun ⟨hoverwrite, _, target, htarget, hlost⟩ =>
      ⟨hoverwrite, ⟨_, rfl⟩, target, ?_, hlost⟩⟩
    rw [List.mem_singleton.mp htarget]
    exact List.mem_cons_self
  | @next _ _ _ _ _ _ _ _ _ _ _ later _ hround _ ih =>
    obtain ⟨hfirst, hlisted⟩ := hround.tallies hinfos hdistinct
    obtain ⟨hexact, earlier, event, rfl⟩ := hlisted _ rfl
    obtain ⟨hkept, hnames, hlost⟩ := ih hexact hfirst.distinct
    have hlater : lostIn (earlier ++ [.notice event] ++ later) = lostIn later := by
      rw [List.append_assoc]
      exact lostIn_told _ _ _
    refine ⟨hkept, ?_, ?_⟩
    · have htally : tally (earlier ++ [.notice event] ++ later) =
          tally (earlier ++ [.notice event]) ++ tally later := by
        rw [tally, hlater, List.filterMap_append, tally, lostIn_told, tally]
        simp [lostIn]
      rw [htally, List.foldl_append, ← hfirst.names_eq, hnames]
    · rw [hlater]
      exact hlost.imp_right fun ⟨hoverwrite, hfault, target, htarget, hlost⟩ =>
        ⟨hoverwrite, hfault, target, List.mem_cons_of_mem _ htarget, hlost⟩

/-! ### Commands -/

theorem quiet_list (refresh : Bool) (state : Faltering) :
    Quiet [.question (.list refresh) state] := by
  intro exchange hexchange
  rw [List.mem_singleton.mp hexchange]
  exact ⟨rfl, rfl⟩

/-- A list asked for beforehand counts for nothing. -/
theorem Tallies.after_list {α : Type} {result : Except Fault α} {refresh : Bool}
    {asked : Faltering} (hstore : asked.store = state.store)
    (h : Tallies overwrite targets result asked last said) :
    Tallies overwrite targets result state last (.question (.list refresh) state :: said) := by
  have hlost : lostIn (.question (.list refresh) state :: said) = lostIn said := by
    rw [lostIn]
    split <;> rfl
  refine ⟨h.distinct, ?_, hlost.symm ▸ h.lost⟩
  rw [h.names_eq, hstore, tally, tally, hlost]
  rfl

theorem Tallies.map {α β : Type} {result : Except Fault α}
    (h : Tallies overwrite targets result state last said) (f : α → β) :
    Tallies overwrite targets (result.map f) state last said := by
  refine ⟨h.distinct, h.names_eq, h.lost.imp_right fun ⟨hoverwrite, ⟨fault, hfault⟩, hlost⟩ => ?_⟩
  exact ⟨hoverwrite, ⟨fault, by rw [hfault]; rfl⟩, hlost⟩

theorem Cloning.tallies {result : Except Fault Unit}
    (h : Cloning faltering source targets overwrite context state result context' last said)
    (hdistinct : state.store.NamesDistinct) : Tallies overwrite targets result state last said := by
  cases h with
  | untargeted => exact .of_quiet nofun rfl hdistinct
  | unlisted _ hanswer | unknown _ hanswer =>
    exact .of_quiet (quiet_list _ _) (store_eq_of_listed hanswer) hdistinct
  | went _ hanswer _ hrounds =>
    obtain ⟨rfl, hstore⟩ := infos_of_listed hanswer
    rw [← hstore] at hrounds
    exact ((hrounds.tallies (exact_infos _) (hstore ▸ hdistinct)).map _).after_list hstore

theorem Removal.tallies {result : Except Fault Unit}
    (h : Removal faltering name context state result context' last said)
    (hdistinct : state.store.NamesDistinct) : Tallies overwrite targets result state last said := by
  cases h with
  | unlisted hanswer | guarded hanswer | unknown hanswer =>
    exact .of_quiet (quiet_list _ _) (store_eq_of_listed hanswer) hdistinct
  | undeleted hanswer _ _ hdelete =>
    have hstore := store_eq_of_listed hanswer
    have hquiet := quiet_undeleted hdelete
    exact (Tallies.of_quiet hquiet (store_eq_of_error hdelete) (hstore ▸ hdistinct)).after_list
      hstore
  | @removed _ number after _ hanswer _ hnumber hdelete =>
    obtain ⟨rfl, hstore⟩ := infos_of_listed hanswer
    obtain ⟨network, hheld⟩ := (exact_infos state.store).of_numberOf hnumber
    have hwithout := without_of_deleted hdelete
    refine Tallies.after_list hstore ⟨?_, ?_, .inl (lostIn_told [_] _ [])⟩
    · exact hwithout ▸ (hstore ▸ hdistinct).without _
    · have htally := tally_told [.question (.delete number) after] rfl (.removed name)
      rw [List.singleton_append] at htally
      rw [htally]
      refine (congrArg Store.names hwithout).trans ?_
      rw [hstore]
      exact names_without hdistinct (nameAt_of_variant? hheld)

/-- A command that asks for the list and says no more. -/
theorem tallies_ask_list {α : Type} {d : Dialogue registryProtocol (Except Fault α × Context)}
    {next : Except Fault (List VariantInfo) → Dialogue registryProtocol (Except Fault α × Context)}
    (hd : d = ask (p := registryProtocol) (.list false) next)
    (hnext : ∀ answer, ∃ outcome, next answer = done outcome)
    (hdistinct : state.store.NamesDistinct) :
    Tallies false [] (d.run faltering state).1.1 state (d.run faltering state).2
      (d.transcript faltering state) := by
  subst hd
  rcases hanswer : faltering.answer (.list false) state with ⟨answer, after⟩
  obtain ⟨outcome, hdone⟩ := hnext answer
  rw [Dialogue.run, transcript, hanswer]
  dsimp only
  rw [hdone]
  exact .of_quiet (quiet_list _ _) (store_eq_of_listed hanswer) hdistinct

theorem command_tallies (command : Command) (context : Context) (state : Faltering)
    (hdistinct : state.store.NamesDistinct) :
    let session := command.session.start context
    ∃ overwrite targets,
      Tallies overwrite targets (session.run faltering state).1.1 state
        (session.run faltering state).2 (session.transcript faltering state) ∧
      (overwrite = true → ∃ source, command = .clone source targets true) := by
  cases command with
  | clone source targets overwrite =>
    refine ⟨overwrite, targets, ?_, ?_⟩
    · rw [Command.session, run_start_map, transcript_start_map]
      exact ((cloning_clone faltering source targets overwrite context state).tallies
        hdistinct).map _
    · rintro rfl
      exact ⟨source, rfl⟩
  | remove name =>
    refine ⟨false, [], ?_, nofun⟩
    rw [Command.session, run_start_map, transcript_start_map]
    exact ((removal_remove faltering name context state).tallies hdistinct).map _
  | work name =>
    refine ⟨false, [], ?_, nofun⟩
    rw [Command.session, run_start_map, transcript_start_map]
    refine (tallies_ask_list (start_work name context) (fun answer => ?_) hdistinct).map _
    cases answer with
    | error fault => exact ⟨_, rfl⟩
    | ok infos =>
      dsimp only
      cases numberOf name infos <;> exact ⟨_, rfl⟩
  | workingName =>
    refine ⟨false, [], ?_, nofun⟩
    rw [Command.session, run_start_map, transcript_start_map]
    refine Tallies.map ?_ _
    have hstart := start_workingName context
    cases hworking : context.working with
    | none =>
      rw [hstart, hworking]
      exact .of_quiet nofun rfl hdistinct
    | some number =>
      rw [hworking] at hstart
      refine tallies_ask_list hstart (fun answer => ?_) hdistinct
      cases answer with
      | error fault => exact ⟨_, rfl⟩
      | ok infos =>
        dsimp only
        cases infos.find? (·.number = number) <;> exact ⟨_, rfl⟩
  | names =>
    refine ⟨false, [], ?_, nofun⟩
    rw [Command.session, run_start_map, transcript_start_map]
    refine (tallies_ask_list (start_names context) (fun answer => ?_) hdistinct).map _
    cases answer <;> exact ⟨_, rfl⟩

end Managing

namespace Faltering

open Dialogue Managing Store

/-! ### One command after the other -/

/-- What is said in each of some calls, which are commands with the contexts that they are given. -/
def heard : Faltering → List (Context × Command) → List (Said Faltering)
  | _, [] => []
  | state, (context, command) :: calls =>
    let session := command.session.start context
    session.transcript faltering state :: (session.run faltering state).2.heard calls

/-- The store after some calls. -/
def after : Faltering → List (Context × Command) → Faltering
  | state, [] => state
  | state, (context, command) :: calls =>
    ((command.session.start context).run faltering state).2.after calls

theorem after_tallies (calls : List (Context × Command)) (state : Faltering)
    (hdistinct : state.store.NamesDistinct) :
    (state.after calls).store.NamesDistinct ∧ (state.after calls).store.names =
      ((state.heard calls).flatMap tally).foldl VariantEvent.replay state.store.names := by
  induction calls generalizing state with
  | nil => exact ⟨hdistinct, rfl⟩
  | cons call calls ih =>
    obtain ⟨context, command⟩ := call
    obtain ⟨_, _, htallies, _⟩ := command_tallies command context state hdistinct
    obtain ⟨hlast, hnames⟩ := ih _ htallies.distinct
    refine ⟨hlast, ?_⟩
    rw [after, hnames, htallies.names_eq, heard, List.flatMap_cons, List.foldl_append]

/-- After any calls, each of which may have failed at any point, the names are those that the events
yield, with the removals added that were not told of; and whatever is done next, there is at most
one such removal, of a target of an overwriting clone that fails. -/
theorem events_mirror_names (faults : List (Option Fault)) (calls : List (Context × Command)) :
    let start : Faltering := ⟨.new, faults⟩
    let last := start.after calls
    last.store.names =
        ((start.heard calls).flatMap tally).foldl VariantEvent.replay {initialVariantName} ∧
      ∀ (context : Context) (command : Command),
        let session := command.session.start context
        lostIn (session.transcript faltering last) = [] ∨
          ∃ source targets fault target, command = .clone source targets true ∧
            (session.run faltering last).1.1 = .error fault ∧ target ∈ targets ∧
            lostIn (session.transcript faltering last) = [target] := by
  intro start last
  obtain ⟨hdistinct, hnames⟩ := after_tallies calls start namesDistinct_new
  refine ⟨hnames, fun context command => ?_⟩
  obtain ⟨overwrite, targets, htallies, hcommand⟩ := command_tallies command context last hdistinct
  refine htallies.lost.imp_right ?_
  rintro ⟨hoverwrite, ⟨fault, hfault⟩, target, htarget, hlost⟩
  obtain ⟨source, hclone⟩ := hcommand hoverwrite
  exact ⟨source, targets, fault, target, hclone, hfault, htarget, hlost⟩

/-- A variant is cloned, and then overwritten while the connection fails as it is cloned anew: it is
gone, but the events say that it is there. -/
theorem overwrite_loses_silently :
    let start : Faltering := ⟨.new, [none, none, none, none, some (.reported .internal "down")]⟩
    let calls : List (Context × Command) :=
      [({}, .clone initialVariantName ["mine"] false),
        ({}, .clone initialVariantName ["mine"] true)]
    ((start.heard calls).flatMap (·.filterMap Exchange.notice?)).foldl VariantEvent.replay
        {initialVariantName} = {initialVariantName, "mine"} ∧
      (start.after calls).store.names = {initialVariantName} := by
  decide +kernel

end Faltering

end Switchyard
