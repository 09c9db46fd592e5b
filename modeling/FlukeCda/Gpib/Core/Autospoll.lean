import FlukeCda.Gpib.Core.LockOrder

/-! # The autospoll thread

It waits for `stuck_srq` to be nonzero, and nobody but itself ever sets it.
-/

namespace FlukeCda.Gpib.Core.Locks
open Interaction Program
open Relation (ReflTransGen)

section
variable {orderly : Prop} {π φ : Type} {i : Task π} {task : Nat}

/-- All but the poll of all devices, and what goes with it. -/
def Calm : LockOp φ → Prop
  | .setStuckSrq value => value = false
  | .testAndClearSrqi | .setSrqi => False
  | .enter handler | .leave handler => handler ≠ .serialPollAll
  | _ => True

structure Unstuck (orderly : Prop) (s : LockState π φ) : Prop where
  locking : Locking orderly s
  stuckSrq : s.stuckSrq = false

/-- A thread that is to stop stays so. -/
def Relied (orderly : Prop) (i : Task π) (s t : LockState π φ) : Prop :=
  Unchanged orderly i s t ∧ ∀ task, s.shouldStop task = true → t.shouldStop task = true

def MayCalmly (orderly : Prop) (i : Task π) (op : LockOp φ) (s : LockState π φ) : Prop := MayLock orderly i op s ∧ Calm op

theorem anywhere_steady :
    Steady (fun s t : LockState π φ => Relied orderly i s t ∧ Unstuck orderly s ∧ Unstuck orderly t) (fun _ => True)
    (fun _ => True) := ⟨fun _ _ _ _ => trivial, fun _ _ => trivial⟩

theorem stopping_steady :
    Steady (fun s t : LockState π φ => Relied orderly i s t ∧ Unstuck orderly s ∧ Unstuck orderly t) (fun _ => True)
    (fun s => s.shouldStop task = true) := ⟨fun _ _ relied stops => relied.1.2 task stops, fun _ _ => trivial⟩

theorem MayLock.calm {process : π} {op : LockOp φ} {s : LockState π φ}
    (may : MayLock orderly (.process process) op s) : Calm op := by
  cases op with
  | setStuckSrq value => exact Bool.eq_false_iff.mpr may
  | testAndClearSrqi | setSrqi => exact may
  | enter handler => exact may.1.mp
  | leave handler => exact may.1.mp
  | _ => trivial

end

section
variable {orderly : Prop} {π φ : Type} [DecidableEq φ] {i : Task π} {s t : LockState π φ} {task rounds : Nat}
  {retval : Int}

theorem LockAct.calmly {op : LockOp φ} {answer : LockAnswer op} (acts : LockAct orderly i op answer s t) (calm : Calm op)
    (unset : s.stuckSrq = false) :
    t.stuckSrq = false ∧ ∀ task, s.shouldStop task = true → t.shouldStop task = true := by
  cases acts with
  | setStuckSrq => exact ⟨calm, fun _ => id⟩
  | kthreadRequestStop =>
    refine ⟨unset, fun task stops => ?_⟩
    simp [Function.update_apply, stops]
  | _ => exact ⟨unset, fun _ => id⟩

/-- The rest of a thread's call, with `stuck_srq` 0. -/
abbrev Dozes {α : Type} (orderly : Prop) (task : Nat) (Q : α → LockState π φ → Prop) :
    LockCode φ α → LockState π φ → Prop :=
  Safe (fun op answer s t => LockAct orderly (.autospoll task) op answer s t ∧ Unstuck orderly s ∧ Unstuck orderly t)
    (fun s t => Relied orderly (.autospoll task) s t ∧ Unstuck orderly s ∧ Unstuck orderly t) (fun op _ => Calm op)
      (fun _ => True) Q

theorem dozes_perform {α : Type} {Q : α → LockState π φ → Prop} {op : LockOp φ} {f : LockAnswer op → LockCode φ α}
    (calm : Calm op) (rest : ∀ answer s, Dozes orderly task Q (f answer) s) : Dozes orderly task Q (perform op >>= f) s :=
  safe_perform anywhere_steady (fun _ _ => calm) (fun _ answer t _ _ => rest answer t) trivial

theorem dozes_false : Dozes orderly task (fun value _ => value = false) (pure false) s :=
  safe_done anywhere_steady (fun _ _ => rfl) trivial

theorem andAlso_query_false {q : Query} {second : LockCode φ Bool}
    (never : ∀ s : LockState π φ, Dozes orderly task (fun value _ => value = false) second s) :
    Dozes orderly task (fun value _ => value = false) (andAlso (query q) second) s := by
  refine dozes_perform trivial fun holds s => ?_
  split_ifs
  · exact never s
  · exact dozes_false

theorem readStuckSrq_false {second : LockCode φ Bool} :
    Dozes orderly task (fun value _ => value = false) (andAlso (perform LockOp.readStuckSrq) second) s := by
  refine safe_perform anywhere_steady (fun _ _ => trivial) (fun s answer t _ acts => ?_) trivial
  obtain ⟨acts, unstuck, -⟩ := acts
  cases acts with
  | readStuckSrq =>
    rw [unstuck.stuckSrq]
    exact dozes_false

theorem autospollWaitShouldWakeUp_false :
    Dozes orderly task (fun value _ => value = false) autospollWaitShouldWakeUp s := by
  refine dozes_perform trivial fun _ s => ?_
  have never : ∀ s : LockState π φ, Dozes orderly task (fun value _ => value = false) (andAlso (query .master)
      (andAlso (query .autospollers) (andAlso (perform LockOp.readStuckSrq) (perform LockOp.testAndClearSrqi)))) s :=
    fun s => andAlso_query_false fun s => andAlso_query_false fun s => readStuckSrq_false
  refine (never s).andThen ?_
  rintro _ s rfl
  exact dozes_perform trivial fun _ s => dozes_false

/-- The wait ends only for the stop. -/
theorem awaitAutospoll_stops :
    Dozes orderly task (fun _ s => s.shouldStop task = true) (awaitAutospoll rounds) s := by
  induction rounds generalizing s with
  | zero => exact safe_never Empty.elim anywhere_steady (fun _ _ => trivial) trivial
  | succ rounds ih =>
    refine safe_perform anywhere_steady (fun _ _ => trivial) (fun s stop t _ acts => ?_) trivial
    obtain ⟨acts, -⟩ := acts
    cases acts with
    | kthreadShouldStop own =>
      cases own
      by_cases stops : s.shouldStop task = true
      · rw [if_pos stops]
        exact safe_done stopping_steady (fun _ stops => stops) stops
      · rw [if_neg stops]
        refine autospollWaitShouldWakeUp_false.andThen ?_
        rintro _ s rfl
        exact dozes_perform trivial fun _ s => ih

theorem autospollThread_dozes : Dozes orderly task (fun _ _ => True) (autospollThread rounds retval) s := by
  cases rounds with
  | zero => exact safe_never Empty.elim anywhere_steady (fun _ _ => trivial) trivial
  | succ rounds =>
    refine awaitAutospoll_stops.andThen fun _ s stops => ?_
    refine safe_perform stopping_steady (fun _ _ => trivial) (fun s stop t stops acts => ?_) stops
    obtain ⟨acts, -⟩ := acts
    cases acts with
    | kthreadShouldStop own =>
      cases own
      rw [if_pos stops]
      exact safe_done anywhere_steady (fun _ _ => trivial) trivial

end

section
variable {π φ : Type} [DecidableEq π] [DecidableEq φ] {orderly : Prop}

theorem board_calm : (board π φ orderly).Sound (MayCalmly orderly) (Relied orderly) (Unstuck orderly) Rests Leaves := by
  refine ⟨?_, ?_, fun i s t relied => Rests.stable orderly i s t relied.1, ?_⟩
  · intro i op answer s t unstuck may acts
    obtain ⟨locking, others⟩ := acts.others unstuck.locking may.1
    obtain ⟨unset, stops⟩ := acts.calmly may.2 unstuck.stuckSrq
    exact ⟨⟨locking, unset⟩, fun j other => ⟨others j other, stops⟩⟩
  · rintro i value s _ unstuck leaves rfl
    obtain ⟨⟨locking, rests⟩, others⟩ := leaves.ends unstuck.locking
    exact ⟨⟨⟨locking, unstuck.stuckSrq⟩, rests⟩, fun j other => ⟨others j other, fun _ => id⟩⟩
  · intro i p s unstuck rests calls
    cases i with
    | process process =>
      have leaves : Keeps orderly (.process process) (Leaves (.process process)) p s :=
        board_sound.safe (.process process) p s unstuck.locking rests calls
      refine (Safe.narrow ?_ ?_ leaves).loosen fun op s may => ⟨may, MayLock.calm may⟩
      · exact fun op answer s t acts => ⟨acts.1, acts.2.1.locking, acts.2.2.locking⟩
      · exact fun s t relied => ⟨relied.1.1, relied.2.1.locking, relied.2.2.locking⟩
    | autospoll task =>
      obtain ⟨rounds, rfl⟩ := calls
      have leaves : Keeps orderly (.autospoll task) (Leaves (.autospoll task)) (autospollThread rounds 0) s :=
        autospollThread_leaves unstuck.locking rests
      refine (Safe.meet (Safe.narrow ?_ ?_ leaves) autospollThread_dozes).mono (fun _ _ => trivial) fun _ _ => And.left
      · exact fun op answer s t acts => ⟨acts.1, acts.2.1.locking, acts.2.2.locking⟩
      · exact fun s t relied => ⟨relied.1.1, relied.2.1.locking, relied.2.2.locking⟩

variable {later : Crowd (Task π) (LockOp φ) LockAnswer Int (LockState π φ)}

/-- In no interleaving of any calls and of any autospoll threads does a thread poll
the devices, or take note of SRQI, or find `stuck_srq` set. -/
theorem autospoll_never_polls (run : ReflTransGen (board π φ orderly).Step ⟨.initial π φ, fun _ => none⟩ later) :
    later.state.stuckSrq = false ∧ ∀ i op next, later.running i = some (.call op next) → Calm op := by
  have first : Crowd.Ok (board π φ orderly) (MayCalmly orderly) (Relied orderly) (Unstuck orderly) Rests Leaves
      ⟨.initial π φ, fun _ => none⟩ := by
    refine ⟨⟨⟨fun _ i own => ?_, fun m lost => ?_⟩, rfl⟩, fun i => Crowd.okAt_none rfl fun m own => ?_⟩
    · cases own
    · cases lost
    · cases own
  have ok := first.run board_calm run
  exact ⟨ok.1.stuckSrq, fun i op next running => (ok.permitted running).2⟩

/-- A process waits for a thread to stop, with the mutex that the thread waits for. -/
structure Hung (pid : π) (task : Nat) (next : Int → LockCode φ Int) (next' : Unit → LockCode φ Int)
    (crowd : Crowd (Task π) (LockOp φ) LockAnswer Int (LockState π φ)) : Prop where
  stops : crowd.running (.process pid) = some (.call (.kthreadAwaitExit task) next)
  waits : crowd.running (.autospoll task) = some (.call (.lock .big) next')
  held : crowd.state.owner .big = .held (.process pid)
  alive : crowd.state.exited task = false

variable {crowd : Crowd (Task π) (LockOp φ) LockAnswer Int (LockState π φ)} {pid : π} {task : Nat}
  {next : Int → LockCode φ Int} {next' : Unit → LockCode φ Int}

omit [DecidableEq π] in
theorem LockAct.exited {i : Task π} {op : LockOp φ} {answer : LockAnswer op} {s t : LockState π φ}
    (acts : LockAct orderly i op answer s t) : t.exited = s.exited := by
  cases acts <;> rfl

theorem Hung.step (hung : Hung pid task next next' crowd)
    (ok : crowd.Ok (board π φ orderly) (MayLock orderly) (Unchanged orderly) (Locking orderly) Rests Leaves)
    (stepped : (board π φ orderly).Step crowd later) : Hung pid task next next' later := by
  obtain ⟨stops, waits, held, alive⟩ := hung
  -- neither of the two goes on, and nobody else touches what they wait for
  cases stepped with
  | @begin j p idle calls =>
    have other : Task.process pid ≠ j := by
      rintro rfl
      rw [idle] at stops
      cases stops
    have other' : Task.autospoll task ≠ j := by
      rintro rfl
      rw [idle] at waits
      cases waits
    exact ⟨(Function.update_of_ne other _ _).trans stops, (Function.update_of_ne other' _ _).trans waits, held, alive⟩
  | @perform j op rest answer t at_call acts =>
    have does : LockAct orderly j op answer crowd.state t := acts
    have other : Task.process pid ≠ j := by
      rintro rfl
      rw [stops] at at_call
      cases at_call
      cases does with
      | kthreadAwaitExit exited =>
        rw [alive] at exited
        cases exited
    have other' : Task.autospoll task ≠ j := by
      rintro rfl
      rw [waits] at at_call
      cases at_call
      cases does with
      | lock free =>
        rw [held] at free
        cases free
    have unchanged := (does.others ok.1 (ok.permitted at_call)).2 _ other
    refine ⟨(Function.update_of_ne other _ _).trans stops, (Function.update_of_ne other' _ _).trans waits,
      unchanged.kept .big kept_big held, ?_⟩
    rw [does.exited]
    exact alive
  | @finish j value t at_end ends =>
    have other : Task.process pid ≠ j := by
      rintro rfl
      rw [stops] at at_end
      cases at_end
    have other' : Task.autospoll task ≠ j := by
      rintro rfl
      rw [waits] at at_end
      cases at_end
    have same : t = crowd.state.afterCall j := ends
    subst same
    have unchanged := ((ok.leaves at_end).ends ok.1).2 _ other
    refine ⟨(Function.update_of_ne other _ _).trans stops, (Function.update_of_ne other' _ _).trans waits,
      unchanged.kept .big kept_big held, ?_⟩
    cases j with
    | process other => exact alive
    | autospoll another =>
      have different : task ≠ another := fun same => other' (by rw [same])
      simp only [LockState.afterCall, Function.update_of_ne different]
      exact alive

/-- The operations other than the end of a function. -/
def LockOp.Between : LockOp φ → Prop
  | .leave _ => False
  | _ => True

/-- What a task has to do since the hang: what is left of the call that was under way,
or a call that has begun since, at its first mutex or past it without having got it. -/
inductive Since (before : Option (LockCode φ Int)) (i : Task π) (p : LockCode φ Int) : Prop
  | left (q : LockCode φ Int) (under_way : before = some q) (leads : q.Leads p)
  | first (file : φ) (rounds : Nat) (cmd : Ioctl) (begins : p = ibioctl file rounds cmd)
  | aside (thread : ¬ i.IsThread) (only : OnlyPerforms LockOp.Between p)
  | thread (thread : i.IsThread)

omit [DecidableEq φ] in
theorem ibclose_between (file : φ) : OnlyPerforms LockOp.Between (ibclose file) := by
  refine onlyPerforms_step trivial fun _ => onlyPerforms_step trivial fun holdingMutex => ?_
  refine onlyPerforms_bind ?_ fun _ => onlyPerforms_step trivial fun _ => trivial
  unfold onlyIf
  split_ifs
  · exact ⟨trivial, fun _ => trivial⟩
  · exact trivial

theorem Hung.since (hung : Hung pid task next next' crowd) {start : Task π → Option (LockCode φ Int)}
    (since : ∀ i p, crowd.running i = some p → Since (start i) i p) (stepped : (board π φ orderly).Step crowd later)
    {i : Task π} {p : LockCode φ Int} (running : later.running i = some p) : Since (start i) i p := by
  cases stepped with
  | @begin j made idle calls =>
    by_cases same : i = j
    · subst same
      cases (Function.update_self i (some made) crowd.running).symm.trans running
      cases i with
      | autospoll another => exact .thread trivial
      | process process =>
        obtain ⟨file, rounds, cmd, begins⟩ | ⟨file, rfl⟩ := calls
        · exact .first file rounds cmd begins
        · exact .aside id (ibclose_between file)
    · exact since i p ((Function.update_of_ne same _ _).symm.trans running)
  | @perform j op rest answer t at_call acts =>
    by_cases same : i = j
    · subst same
      cases (Function.update_self i (some (rest answer)) crowd.running).symm.trans running
      cases since i _ at_call with
      | left q under_way leads => exact .left q under_way leads.step
      | first file rounds cmd begins =>
        change Program.call op rest = .call (.lockInterruptible .big) _ at begins
        cases begins
        have does : LockAct orderly i (.lockInterruptible .big) answer crowd.state t := acts
        cases does with
        | locked free =>
          rw [hung.held] at free
          cases free
        | interrupted =>
          by_cases thread : i.IsThread
          · exact .thread thread
          · exact .aside thread trivial
      | aside thread only => exact .aside thread (only.2 answer)
      | thread thread => exact .thread thread
    · exact since i p ((Function.update_of_ne same _ _).symm.trans running)
  | @finish j value t at_end ends =>
    by_cases same : i = j
    · subst same
      cases (Function.update_self i none crowd.running).symm.trans running
    · exact since i p ((Function.update_of_ne same _ _).symm.trans running)

end

theorem calls_autospollThread (task rounds : Nat) :
    (board Bool Unit False).calls (.autospoll task) (autospollThread rounds 0) := ⟨rounds, rfl⟩

/-- With the board online and devices to poll for, the thread comes to `stuck_srq` and goes to sleep. -/
theorem autospoll_never_polls_online :
    ∃ asks sleeps : Crowd (Task Bool) (LockOp Unit) LockAnswer Int (LockState Bool Unit),
      asks.state.autospollTask = some 0 ∧ (∃ next, asks.running (.autospoll 0) = some (.call .readStuckSrq next)) ∧
        asks.state.stuckSrq = false ∧ ReflTransGen (board Bool Unit False).Step asks sleeps ∧
        (∃ next, sleeps.running (.autospoll 0) = some (.call .sleep next)) ∧ sleeps.state.stuckSrq = false := by
  have run : ∃ asks, ReflTransGen (board Bool Unit False).Step ⟨.initial Bool Unit, fun _ => none⟩ asks ∧
      asks.state.autospollTask = some 0 ∧ (∃ next, asks.running (.autospoll 0) = some (.call .readStuckSrq next)) ∧
        ∃ sleeps, ReflTransGen (board Bool Unit False).Step asks sleeps ∧
          ∃ next, sleeps.running (.autospoll 0) = some (.call .sleep next) := by
    refine ⟨?asks, ?run, ?online, ⟨?next, ?at_test⟩, ?sleeps, ?further, ?next', ?at_sleep⟩
    case run =>
      refine .head (.begin rfl (calls_ibioctl false () 0 .ibOnl)) ?_
      refine .head (.perform (i := .process false) rfl (.locked rfl)) ?_
      refine .head (.perform (i := .process false) rfl (.onlineCmd : LockAct _ _ .onlineCmd (.ok true) _ _)) ?_
      refine .head (.perform (i := .process false) rfl (.query : LockAct _ _ (.query .online) false _ _)) ?_
      refine .head (.perform (i := .process false) rfl (.query : LockAct _ _ (.query .interface) true _ _)) ?_
      refine .head (.perform (i := .process false) rfl .enter) ?_
      refine .head (.perform (i := .process false) rfl
        (.leave : LockAct _ _ (.leave .gpibAllocateBoard) (0 : Int) _ _)) ?_
      refine .head (.perform (i := .process false) rfl .enter) ?_
      refine .head (.perform (i := .process false) rfl (.leave : LockAct _ _ (.leave .attach) (0 : Int) _ _)) ?_
      refine .head (.perform (i := .process false) rfl (@LockAct.kthreadRun _ _ _ _ _ _ 0 ⟨rfl, rfl⟩)) ?_
      refine .head (.perform (i := .process false) rfl .unlock) ?_
      refine .head (.finish (i := .process false) rfl rfl) ?_
      refine .head (.begin rfl (calls_autospollThread 0 2)) ?_
      refine .head (.perform (i := .autospoll 0) rfl (.kthreadShouldStop rfl)) ?_
      refine .head (.perform (i := .autospoll 0) rfl (.lock rfl)) ?_
      refine .head (.perform (i := .autospoll 0) rfl (.query : LockAct _ _ (.query .master) true _ _)) ?_
      refine .head (.perform (i := .autospoll 0) rfl (.query : LockAct _ _ (.query .autospollers) true _ _)) ?_
      exact .refl
    case online => rfl
    case at_test => rfl
    case further =>
      refine .head (.perform (i := .autospoll 0) rfl .readStuckSrq) ?_
      refine .head (.perform (i := .autospoll 0) rfl .unlock) ?_
      exact .refl
    case at_sleep => rfl
  obtain ⟨asks, run, online, at_test, sleeps, further, at_sleep⟩ := run
  exact ⟨asks, sleeps, online, at_test, (autospoll_never_polls run).1, further, at_sleep,
    (autospoll_never_polls (run.trans further)).1⟩

end FlukeCda.Gpib.Core.Locks
