import RepairLedger.Proofs.Host.Running

/-!
# What programs do

Most of what a program asks for leaves no mark: it looks at files, at the clock or at the
environment, or it speaks.  Its deeds (`Program.deeds`) are the rest, in their order: what it asks
of servers, with their answers, and which files it gives new contents.

The deeds of two programs one after the other are those of both (`Program.deeds_bind`), and a log
adds none (`Program.deeds_logging`).  Of an attempt, its result and its deeds are spoken of together
(`Attempt.Goes`), so that an attempt made of two can be taken apart (`Attempt.goes_bind`).
-/

namespace RepairLedger

namespace Host

/-- Something that a program does to the world outside. -/
inductive Deed where
  | fetch (request : Request) (reply : Except ConnectionFailure Response)
  | write (path : Path)
  | rename (source target : Path)

/-- The request of a deed, and the answer to it. -/
def Deed.fetch? : Deed → Option (Request × Except ConnectionFailure Response)
  | fetch request reply => some (request, reply)
  | _ => none

/-- What it means to ask for something and to get this reply. -/
def Op.deed? : (op : Op) → op.Reply → Option Deed
  | .fetch request, reply => some (.fetch request reply)
  | .write path _, _ => some (.write path)
  | .rename source target, _ => some (.rename source target)
  | _, _ => none

namespace Program

variable {α β : Type} {P : Op → Prop} {w : World}

/-- What a program does in a world. -/
def deeds : Program α → World → List Deed
  | done _, _ => []
  | ask op next, w =>
    (op.deed? (w.perform op).1).toList ++ (next (w.perform op).1).deeds (w.perform op).2

/-- What a program asks of servers, with their answers. -/
def fetches (p : Program α) (w : World) : List (Request × Except ConnectionFailure Response) :=
  (p.deeds w).filterMap Deed.fetch?

theorem deeds_bind (p : Program α) (f : α → Program β) (w : World) :
    (p >>= f).deeds w = p.deeds w ++ (f (p.run w).1).deeds (p.run w).2 := by
  induction p generalizing w with
  | done a => rfl
  | ask op next ih =>
    have hrest := ih (w.perform op).1 (w.perform op).2
    rw [deeds, List.append_assoc]
    exact congrArg ((op.deed? (w.perform op).1).toList ++ ·) hrest

/-- What each permitted operation comes to, all deeds come to. -/
theorem Asks.deeds {R : Deed → Prop} {p : Program α} (h : p.Asks P)
    (hstep : ∀ op, P op → ∀ reply, ∀ d ∈ op.deed? reply, R d) (w : World) :
    ∀ d ∈ p.deeds w, R d := by
  induction h generalizing w with
  | done a =>
    intro d hd
    exact absurd hd List.not_mem_nil
  | ask hop _ ih =>
    intro d hd
    rcases List.mem_append.1 hd with hd | hd
    · exact hstep _ hop _ d (Option.mem_toList.1 hd)
    · exact ih _ _ d hd

/-- The operations that are no deeds. -/
def IsIdle : Op → Prop
  | .fetch _ | .write _ _ | .rename _ _ => False
  | _ => True

theorem Looks.isIdle {op : Op} (h : Looks op) : IsIdle op := by
  cases op with
  | fetch | write | rename => exact h
  | _ => trivial

/-- A program that asks for no deeds does nothing. -/
theorem Asks.deeds_eq_nil {p : Program α} (h : p.Asks IsIdle) (w : World) : p.deeds w = [] := by
  refine List.eq_nil_iff_forall_not_mem.2 (h.deeds (R := fun _ => False) ?_ w)
  intro op hop reply d hd
  cases op with
  | fetch | write | rename => exact hop
  | _ => cases hd

/-- The operations that ask nothing of a server. -/
def IsLocal : Op → Prop
  | .fetch _ => False
  | _ => True

theorem Looks.isLocal {op : Op} (h : Looks op) : IsLocal op := by
  cases op with
  | fetch => exact h
  | _ => trivial

/-- A program that asks for nothing from servers fetches nothing. -/
theorem Asks.fetch?_eq_none {p : Program α} (h : p.Asks IsLocal) (w : World) :
    ∀ d ∈ p.deeds w, d.fetch? = none := by
  refine h.deeds (R := fun d => d.fetch? = none) ?_ w
  intro op hop reply d hd
  cases op with
  | fetch => exact hop.elim
  | write | rename =>
    cases hd
    rfl
  | _ => cases hd

/-- The deeds do not depend on what has been printed on the channel for errors. -/
theorem deeds_logging_from (log : Log) (p : Program α) (w : World) (text : String) :
    (p.logging log).deeds { w with complaints := text } = p.deeds w := by
  induction p generalizing w text with
  | done a => rfl
  | ask op next ih =>
    have hother : (Program.ask op fun reply => (next reply).logging log).deeds
        { w with complaints := text } = (ask op next).deeds w := by
      obtain ⟨text', h⟩ := perform_complaints w text op
      rw [deeds, deeds, h, ih]
    cases op with
    | log event =>
      rw [logging]
      split
      · exact ih () w _
      · exact ih () w text
    | _ => exact hother

/-- A log does nothing. -/
theorem deeds_logging (log : Log) (p : Program α) (w : World) :
    (p.logging log).deeds w = p.deeds w :=
  deeds_logging_from log p w w.complaints

/-- The requests that came to a server are those that were made. -/
theorem requests_run (p : Program α) (w : World) :
    (p.run w).2.network = w.network ∧ (p.run w).2.requests =
      w.requests ++ if w.network.reaches then (p.fetches w).map Prod.fst else [] := by
  induction p generalizing w with
  | done a => simp [run, fetches, deeds]
  | ask op next ih =>
    have hstep : (w.perform op).2.network = w.network ∧ (w.perform op).2.requests =
        w.requests ++ if w.network.reaches then
          ((op.deed? (w.perform op).1).toList.filterMap Deed.fetch?).map Prod.fst else [] := by
      cases op with
      | fetch request =>
        cases hr : w.network.reaches <;> simp [World.perform, hr, Op.deed?, Deed.fetch?]
      | write path bytes =>
        simp only [World.perform, World.change]
        split <;> simp [Op.deed?, Deed.fetch?]
      | makeDirectory path =>
        simp only [World.perform, World.change]
        split <;> simp [Op.deed?]
      | rename source target =>
        simp only [World.perform, World.rename]
        split <;> simp [Op.deed?, Deed.fetch?]
      | lock path timeout =>
        simp only [World.perform, World.lock]
        split
        · simp [Op.deed?]
        · split <;> simp [Op.deed?]
      | _ => simp [World.perform, Op.deed?]
    obtain ⟨hnetwork, hrequests⟩ := ih (w.perform op).1 (w.perform op).2
    refine ⟨hnetwork.trans hstep.1, hrequests.trans ?_⟩
    rw [hstep.1, hstep.2, List.append_assoc, fetches, fetches, deeds, List.filterMap_append,
      List.map_append]
    cases w.network.reaches <;> simp

end Program

end Host

/-! ### Attempts -/

open Host

namespace Attempt

variable {ε κ α β : Type} {P : Op → Prop} {w v : World} {r : Except ε α} {ds : List Deed}

/-- What an attempt does in a world. -/
def deedsIn (p : Attempt ε α) (w : World) : List Deed :=
  Program.deeds (ExceptT.run p) w

/-- The attempt, made in the first world, has this result, ends in the second world, and does this.
-/
def Goes (p : Attempt ε α) (w : World) (r : Except ε α) (v : World) (ds : List Deed) : Prop :=
  runIn p w = (r, v) ∧ deedsIn p w = ds

/-- An attempt without deeds. -/
theorem Goes.idle {p : Attempt ε α} (h : Goes p w r v ds) (hp : Asks Program.IsIdle p) :
    ds = [] := by
  rw [← h.2]
  exact Program.Asks.deeds_eq_nil hp w

/-- An attempt that only looks at the world ends in it and does nothing. -/
theorem Goes.looks {p : Attempt ε α} (h : Goes p w r v ds) (hp : Asks Program.Looks p) :
    v = w ∧ ds = [] := by
  obtain ⟨r', hr'⟩ := hp.exists_runIn w
  rw [h.1] at hr'
  exact ⟨congrArg Prod.snd hr', h.idle (hp.mono fun _ => Program.Looks.isIdle)⟩

theorem goes_pure {a : α} :
    Goes (pure a : Attempt ε α) w r v ds ↔ r = .ok a ∧ v = w ∧ ds = [] := by
  have hdeeds : deedsIn (pure a : Attempt ε α) w = [] := rfl
  rw [Goes, runIn_pure, hdeeds, Prod.mk.injEq, and_assoc, eq_comm (b := r), eq_comm (b := v),
    eq_comm (b := ds)]

theorem goes_throw {e : ε} :
    Goes (throw e : Attempt ε α) w r v ds ↔ r = .error e ∧ v = w ∧ ds = [] := by
  have hdeeds : deedsIn (throw e : Attempt ε α) w = [] := rfl
  rw [Goes, runIn_throw, hdeeds, Prod.mk.injEq, and_assoc, eq_comm (b := r), eq_comm (b := v),
    eq_comm (b := ds)]

theorem goes_ask {op : Op} {r : Except ε op.Reply} :
    Goes (ask op : Attempt ε op.Reply) w r v ds ↔
      r = .ok (w.perform op).1 ∧ v = (w.perform op).2 ∧
        ds = (op.deed? (w.perform op).1).toList := by
  have hdeeds : deedsIn (ask op : Attempt ε op.Reply) w = (op.deed? (w.perform op).1).toList :=
    List.append_nil _
  rw [Goes, runIn_ask, hdeeds, Prod.mk.injEq, and_assoc, eq_comm (b := r), eq_comm (b := v),
    eq_comm (b := ds)]

theorem deedsIn_bind (p : Attempt ε α) (f : α → Attempt ε β) :
    deedsIn (p >>= f) w = deedsIn p w ++
      match runIn p w with
      | (.ok a, v) => deedsIn (f a) v
      | (.error _, _) => [] := by
  unfold deedsIn runIn
  rw [ExceptT.run_bind, Program.deeds_bind]
  rcases (Program.run (ExceptT.run p) w) with ⟨_ | _, _⟩ <;> rfl

/-- An attempt of two stops at the error of the first, or goes on with its result. -/
theorem goes_bind {p : Attempt ε α} {f : α → Attempt ε β} {r : Except ε β} :
    Goes (p >>= f) w r v ds ↔
      (∃ e, r = .error e ∧ Goes p w (.error e) v ds) ∨
      ∃ a u ds₁ ds₂, Goes p w (.ok a) u ds₁ ∧ Goes (f a) u r v ds₂ ∧ ds = ds₁ ++ ds₂ := by
  constructor
  · rintro ⟨hrun, rfl⟩
    rw [deedsIn_bind]
    rw [runIn_bind] at hrun
    rcases hp : runIn p w with ⟨e | a, u⟩
    · rw [hp] at hrun
      cases hrun
      exact .inl ⟨e, rfl, hp, (List.append_nil _).symm⟩
    · rw [hp] at hrun
      exact .inr ⟨a, u, _, _, ⟨hp, rfl⟩, ⟨hrun, rfl⟩, rfl⟩
  · rintro (⟨e, rfl, hp, rfl⟩ | ⟨a, u, ds₁, ds₂, ⟨hp, rfl⟩, ⟨hf, rfl⟩, rfl⟩)
    · refine ⟨by rw [runIn_bind, hp], ?_⟩
      rw [deedsIn_bind, hp]
      exact List.append_nil _
    · exact ⟨by rw [runIn_bind, hp]; exact hf, by rw [deedsIn_bind, hp]⟩

/-- A step that only looks at the world stops the attempt, or does not matter for what is done. -/
theorem goes_bind_looks {p : Attempt ε α} {f : α → Attempt ε β} {r : Except ε β}
    (hp : Asks Program.Looks p) (h : Goes (p >>= f) w r v ds) :
    (∃ e, r = .error e ∧ v = w ∧ ds = [] ∧ runIn p w = (.error e, w)) ∨
      ∃ a, runIn p w = (.ok a, w) ∧ Goes (f a) w r v ds := by
  obtain ⟨e, rfl, hstop⟩ | ⟨a, u, ds₁, ds₂, hgo, hrest, rfl⟩ := goes_bind.1 h
  · obtain ⟨rfl, rfl⟩ := hstop.looks hp
    exact .inl ⟨e, rfl, rfl, rfl, hstop.1⟩
  · obtain ⟨rfl, rfl⟩ := hgo.looks hp
    exact .inr ⟨a, hgo.1, hrest⟩

/-- An attempt with its error put in other words does what it did before. -/
theorem goes_adapt {f : κ → ε} {p : Attempt κ α} :
    Goes (ExceptT.adapt f p) w r v ds ↔ ∃ r', Goes p w r' v ds ∧ r = r'.mapError f := by
  have hdeeds : deedsIn (ExceptT.adapt f p) w = deedsIn p w :=
    (Program.deeds_bind _ _ w).trans (List.append_nil _)
  unfold Goes
  rw [runIn_adapt, hdeeds]
  constructor
  · rintro ⟨h, rfl⟩
    cases h
    exact ⟨_, ⟨rfl, rfl⟩, rfl⟩
  · rintro ⟨r', ⟨h, rfl⟩, rfl⟩
    rw [h]
    exact ⟨rfl, rfl⟩

/-- To give a lock back on failure is no deed. -/
theorem goes_releasing {lock : Lock} {use : Attempt ε α}
    (h : Goes (LedgerFile.releasing lock use) w r v ds) : ∃ u, Goes use w r u ds := by
  have htry : ExceptT.run (LedgerFile.releasing lock use) = ExceptT.run use >>= fun
      | .ok a => pure (.ok a)
      | .error e => ExceptT.run (do ask (.unlock lock); throw e : Attempt ε α) := rfl
  have hdeeds : deedsIn (LedgerFile.releasing lock use) w = deedsIn use w := by
    unfold deedsIn
    rw [htry, Program.deeds_bind]
    rcases (Program.run (ExceptT.run use) w) with ⟨_ | _, _⟩ <;> exact List.append_nil _
  obtain ⟨hrun, rfl⟩ := h
  rw [runIn_releasing] at hrun
  rcases huse : runIn use w with ⟨e | a, u⟩
  · rw [huse] at hrun
    cases hrun
    exact ⟨u, huse, hdeeds.symm⟩
  · rw [huse] at hrun
    cases hrun
    exact ⟨_, huse, hdeeds.symm⟩

end Attempt

end RepairLedger
