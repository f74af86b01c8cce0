import Mathlib

set_option autoImplicit false

/- Programs that act on a shared world one operation at a time, any number of them interleaved.
Between two operations of a program the others may change the world, an operation may fail or lose
its reply, and a program may be dropped where it stands. -/
namespace Interleaving

/-- A program is its next operation and what it does with each reply. -/
inductive Program (Op : Type) (Reply : Op → Type) (α : Type) where
  | done (result : α)
  | call (op : Op) (next : Reply op → Program Op Reply α)

namespace Program

variable {Op : Type} {Reply : Op → Type} {α β : Type}

def bind (program : Program Op Reply α) (rest : α → Program Op Reply β) : Program Op Reply β :=
  match program with
  | .done result => rest result
  | .call op next => .call op fun reply => (next reply).bind rest

instance : Monad (Program Op Reply) where
  pure := .done
  bind := bind

end Program

/-- One operation of a program that may throw, and its reply. -/
def ask {Op : Type} {Reply : Op → Type} {ε : Type} (op : Op) :
    ExceptT ε (Program Op Reply) (Reply op) :=
  ExceptT.mk (.call op fun reply => .done (.ok reply))

/-- Goes on with a value that is there, or throws. -/
def given {Op : Type} {Reply : Op → Type} {ε α : Type} (result : Except ε α) :
    ExceptT ε (Program Op Reply) α :=
  ExceptT.mk (.done result)

section alone

variable {Op : Type} {Reply : Op → Type} {World ε α β : Type}

/-- The program run alone, each operation answered by `act`. -/
def exec (act : World → (op : Op) → World × Reply op) : Program Op Reply α → World → World × α
  | .done result, world => (world, result)
  | .call op next, world => exec act (next (act world op).2) (act world op).1

variable (act : World → (op : Op) → World × Reply op)

theorem exec_bind (program : Program Op Reply α) (rest : α → Program Op Reply β) (world : World) :
    exec act (program >>= rest) world =
      exec act (rest (exec act program world).2) (exec act program world).1 := by
  induction program generalizing world with
  | done result => rfl
  | call op next ih => exact ih _ _

/-- A program that may throw, run alone from one world, ends in another with this result. -/
def Ends (program : ExceptT ε (Program Op Reply) α) (world : World) (after : World × Except ε α) :
    Prop :=
  exec act program.run world = after

variable {act}

namespace Ends

theorem pure (result : α) (world : World) :
    Ends act (Pure.pure result : ExceptT ε (Program Op Reply) α) world (world, .ok result) := rfl

theorem bind {program : ExceptT ε (Program Op Reply) α}
    {rest : α → ExceptT ε (Program Op Reply) β} {world between : World} {result : α}
    {after : World × Except ε β} (first : Ends act program world (between, .ok result))
    (second : Ends act (rest result) between after) : Ends act (program >>= rest) world after := by
  unfold Ends at first second ⊢
  have split := exec_bind act program.run (ExceptT.bindCont rest) world
  rw [first] at split
  exact split.trans second

theorem fail {program : ExceptT ε (Program Op Reply) α}
    {rest : α → ExceptT ε (Program Op Reply) β} {world after : World} {error : ε}
    (first : Ends act program world (after, .error error)) :
    Ends act (program >>= rest) world (after, .error error) := by
  unfold Ends at first ⊢
  have split := exec_bind act program.run (ExceptT.bindCont rest) world
  rw [first] at split
  exact split

theorem ask (op : Op) (world : World) :
    Ends act (Interleaving.ask op : ExceptT ε (Program Op Reply) (Reply op)) world
      ((act world op).1, .ok (act world op).2) := rfl

theorem mapError {γ : Type} {program : ExceptT ε (Program Op Reply) α} {world after : World}
    {result : Except ε α} (convert : ε → γ) (ends : Ends act program world (after, result)) :
    Ends act (program.adapt convert) world (after, result.mapError convert) := by
  unfold Ends at ends ⊢
  have split := exec_bind act program.run (fun found => .done (Except.mapError convert found)) world
  rw [ends] at split
  exact split

end Ends

end alone

/- A program whose operations only read, each at its own moment: what it is answered depends on the
moment, and the world may change from one to the next. -/
section timed

variable {Op : Type} {Reply : Op → Type} {ε α β : Type}

/-- The result, and the moment after the last operation. -/
def timed (answer : Nat → (op : Op) → Reply op) : Program Op Reply α → Nat → α × Nat
  | .done result, moment => (result, moment)
  | .call op next, moment => timed answer (next (answer moment op)) (moment + 1)

variable {answer : Nat → (op : Op) → Reply op}

theorem timed_bind (program : Program Op Reply α) (rest : α → Program Op Reply β) (moment : Nat) :
    timed answer (program >>= rest) moment =
      timed answer (rest (timed answer program moment).1) (timed answer program moment).2 := by
  induction program generalizing moment with
  | done result => rfl
  | call op next ih => exact ih _ _

theorem timed_bind_of_ok {program : ExceptT ε (Program Op Reply) α}
    {rest : α → ExceptT ε (Program Op Reply) β} {moment between : Nat} {value : α}
    (first : timed answer program.run moment = (.ok value, between)) :
    timed answer (program >>= rest).run moment = timed answer (rest value).run between := by
  have split := @timed_bind _ _ _ _ answer program.run (ExceptT.bindCont rest) moment
  rw [first] at split
  exact split

/-- A value that is returned by two programs in a row: the first has returned one. -/
theorem timed_bind_ok {program : ExceptT ε (Program Op Reply) α}
    {rest : α → ExceptT ε (Program Op Reply) β} {moment stop : Nat} {result : β}
    (returned : timed answer (program >>= rest).run moment = (.ok result, stop)) :
    ∃ value between, timed answer program.run moment = (.ok value, between) ∧
      timed answer (rest value).run between = (.ok result, stop) := by
  have split := (timed_bind program.run (ExceptT.bindCont rest) moment).symm.trans returned
  cases first : timed answer program.run moment with
  | mk found between =>
      rw [first] at split
      cases found with
      | error error => cases split
      | ok value => exact ⟨value, between, rfl, split⟩

theorem timed_ask (op : Op) (moment : Nat) :
    timed answer (ask op : ExceptT ε (Program Op Reply) (Reply op)).run moment =
      (.ok (answer moment op), moment + 1) := rfl

theorem timed_given {result : Except ε α} {value : α} (same : result = .ok value) (moment : Nat) :
    timed answer (given result : ExceptT ε (Program Op Reply) α).run moment = (.ok value, moment) :=
  congrArg (·, moment) same

theorem timed_given_ok {result : Except ε α} {value : α} {moment stop : Nat}
    (returned : timed answer (given result : ExceptT ε (Program Op Reply) α).run moment =
      (.ok value, stop)) : result = .ok value ∧ stop = moment :=
  ⟨congrArg Prod.fst returned, (congrArg Prod.snd returned).symm⟩

end timed

/-- What a world is to its programs: how an operation with its outcome acts on it, and the
invariant and the order that every change of it keeps. -/
structure Rules (World Op : Type) (Reply : Op → Type) (Outcome : Type) where
  act : World → (op : Op) → Outcome → World × Reply op
  Invariant : World → Prop
  Grows : World → World → Prop
  refl : ∀ world, Grows world world
  trans : ∀ {first second third}, Grows first second → Grows second third → Grows first third

section interleaved

variable {World Op Outcome : Type} {Reply : Op → Type} {ε α β : Type}
variable (rules : Rules World Op Reply Outcome)

/-- Whatever the others do in between, as long as it grows the world and keeps the invariant, and
whatever its operations are answered, the program does the same and ends with `post`. -/
def Safe (post : World → α → Prop) : Program Op Reply α → World → Prop
  | .done result, world =>
      ∀ later, rules.Grows world later → rules.Invariant later → post later result
  | .call op next, world =>
      ∀ later, rules.Grows world later → rules.Invariant later → ∀ outcome,
        rules.Invariant (rules.act later op outcome).1 ∧
        rules.Grows later (rules.act later op outcome).1 ∧
        Safe post (next (rules.act later op outcome).2) (rules.act later op outcome).1

/-- Safe, with `post` for the values it returns and nothing for the errors it throws. -/
def Returns (post : World → α → Prop) (program : ExceptT ε (Program Op Reply) α) (world : World) :
    Prop :=
  Safe rules (fun later result => ∀ value, result = .ok value → post later value)
    program.run world

variable {rules}

variable {world : World} {Change : World → World → Prop}

theorem Safe.later {post : World → α → Prop} {program : Program Op Reply α} {later : World}
    (grows : rules.Grows world later) (safe : Safe rules post program world) :
    Safe rules post program later := by
  cases program with
  | done result =>
      intro last after holds
      exact safe last (rules.trans grows after) holds
  | call op next =>
      intro last after holds
      exact safe last (rules.trans grows after) holds

/-- To be safe from here on is to be safe from every later world. -/
theorem Safe.of_later {post : World → α → Prop} {program : Program Op Reply α}
    (safe : ∀ later, rules.Grows world later → rules.Invariant later →
      Safe rules post program later) : Safe rules post program world := by
  cases program with
  | done result =>
      intro later grows holds
      exact safe later grows holds later (rules.refl later) holds
  | call op next =>
      intro later grows holds
      exact safe later grows holds later (rules.refl later) holds

theorem Safe.bind {mid : World → α → Prop} {post : World → β → Prop}
    {program : Program Op Reply α} {rest : α → Program Op Reply β}
    (first : Safe rules mid program world)
    (second : ∀ later result, rules.Grows world later → rules.Invariant later →
      mid later result → Safe rules post (rest result) later) :
    Safe rules post (program >>= rest) world := by
  induction program generalizing world with
  | done result =>
      apply Safe.of_later
      intro later grows holds
      exact second later result grows holds (first later grows holds)
  | call op next ih =>
      intro later grows holds outcome
      obtain ⟨kept, grown, safe⟩ := first later grows holds outcome
      refine ⟨kept, grown, ih _ safe ?_⟩
      intro last result after still reached
      exact second last result (rules.trans grows (rules.trans grown after)) still reached

theorem Safe.map {mid : World → α → Prop} {post : World → β → Prop} {program : Program Op Reply α}
    (convert : α → β) (implies : ∀ later result, mid later result → post later (convert result))
    (safe : Safe rules mid program world) : Safe rules post (convert <$> program) world := by
  induction program generalizing world with
  | done result =>
      intro later grows holds
      exact implies later result (safe later grows holds)
  | call op next ih =>
      intro later grows holds outcome
      obtain ⟨kept, grown, safely⟩ := safe later grows holds outcome
      exact ⟨kept, grown, ih _ safely⟩

theorem Safe.mono {mid post : World → α → Prop} {program : Program Op Reply α}
    (implies : ∀ later result, rules.Grows world later → rules.Invariant later →
      mid later result → post later result) (safe : Safe rules mid program world) :
    Safe rules post program world := by
  induction program generalizing world with
  | done result =>
      intro later grows holds
      exact implies later result grows holds (safe later grows holds)
  | call op next ih =>
      intro later grows holds outcome
      obtain ⟨kept, grown, safely⟩ := safe later grows holds outcome
      refine ⟨kept, grown, ih _ ?_ safely⟩
      intro last result after
      exact implies last result (rules.trans grows (rules.trans grown after))

namespace Returns

variable {world : World}

theorem safe {post : World → α → Prop} {program : ExceptT ε (Program Op Reply) α}
    (returns : Returns rules post program world) :
    Safe rules (fun _ _ => True) program.run world :=
  Safe.mono (fun _ _ _ _ _ => trivial) returns

theorem pure {post : World → α → Prop} {result : α}
    (holds : ∀ later, rules.Grows world later → rules.Invariant later → post later result) :
    Returns rules post (Pure.pure result : ExceptT ε (Program Op Reply) α) world := by
  intro later grows kept value same
  cases same
  exact holds later grows kept

theorem throw {post : World → α → Prop} (error : ε) (world : World) :
    Returns rules post (MonadExcept.throw error : ExceptT ε (Program Op Reply) α) world := by
  intro later grows kept value same
  cases same

theorem bind {mid : World → α → Prop} {post : World → β → Prop}
    {program : ExceptT ε (Program Op Reply) α} {rest : α → ExceptT ε (Program Op Reply) β}
    (first : Returns rules mid program world)
    (second : ∀ later result, rules.Grows world later → rules.Invariant later →
      mid later result → Returns rules post (rest result) later) :
    Returns rules post (program >>= rest) world := by
  apply Safe.bind first
  intro later result grows holds reached
  cases result with
  | ok value => exact second later value grows holds (reached value rfl)
  | error error =>
      intro last after kept value same
      cases same

theorem ask {post : World → α → Prop} {op : Op} {rest : Reply op → ExceptT ε (Program Op Reply) α}
    (performed : ∀ later, rules.Grows world later → rules.Invariant later → ∀ outcome,
      rules.Invariant (rules.act later op outcome).1 ∧
      rules.Grows later (rules.act later op outcome).1 ∧
      Returns rules post (rest (rules.act later op outcome).2) (rules.act later op outcome).1) :
    Returns rules post (Interleaving.ask op >>= rest) world :=
  performed

theorem read {post : World → α → Prop} {op : Op}
    {rest : Reply op → ExceptT ε (Program Op Reply) α}
    (reads : ∀ later outcome, (rules.act later op outcome).1 = later)
    (performed : ∀ later, rules.Grows world later → rules.Invariant later → ∀ outcome,
      Returns rules post (rest (rules.act later op outcome).2) later) :
    Returns rules post (Interleaving.ask op >>= rest) world := by
  apply Returns.ask
  intro later grows holds outcome
  rw [reads later outcome]
  exact ⟨holds, rules.refl later, performed later grows holds outcome⟩

/-- An operation that any world allows, whatever its reply. -/
theorem any {post : World → α → Prop} {op : Op} {rest : Reply op → ExceptT ε (Program Op Reply) α}
    (allowed : ∀ later outcome, rules.Invariant later →
      rules.Invariant (rules.act later op outcome).1 ∧
      rules.Grows later (rules.act later op outcome).1)
    (performed : ∀ later reply, rules.Grows world later → rules.Invariant later →
      Returns rules post (rest reply) later) :
    Returns rules post (Interleaving.ask op >>= rest) world := by
  apply Returns.ask
  intro later grows holds outcome
  obtain ⟨kept, grown⟩ := allowed later outcome holds
  exact ⟨kept, grown, performed _ _ (rules.trans grows grown) kept⟩

theorem mapError {γ : Type} {post : World → α → Prop} {program : ExceptT ε (Program Op Reply) α}
    (convert : ε → γ) (returns : Returns rules post program world) :
    Returns rules post (program.adapt convert) world := by
  apply Safe.map (Except.mapError convert) ?_ returns
  intro later result reached value same
  cases result with
  | ok _ =>
      cases same
      exact reached value rfl
  | error error => cases same

end Returns

/-- Any number of programs over one world. -/
structure System (World Op : Type) (Reply : Op → Type) (α : Type) where
  world : World
  tasks : List (Program Op Reply α)

/-- One program performs its next operation, or is started, or is dropped, or the world changes by
itself. -/
inductive Step (act : World → (op : Op) → Outcome → World × Reply op)
    (Change : World → World → Prop) (Start : Program Op Reply α → Prop) :
    System World Op Reply α → System World Op Reply α → Prop where
  | perform (world : World) (before after : List (Program Op Reply α)) (op : Op)
      (next : Reply op → Program Op Reply α) (outcome : Outcome) :
      Step act Change Start ⟨world, before ++ .call op next :: after⟩
        ⟨(act world op outcome).1, before ++ next (act world op outcome).2 :: after⟩
  | start (world : World) (tasks : List (Program Op Reply α)) (program : Program Op Reply α) :
      Start program → Step act Change Start ⟨world, tasks⟩ ⟨world, program :: tasks⟩
  | drop (world : World) (before after : List (Program Op Reply α)) (task : Program Op Reply α) :
      Step act Change Start ⟨world, before ++ task :: after⟩ ⟨world, before ++ after⟩
  | change (world later : World) (tasks : List (Program Op Reply α)) :
      Change world later → Step act Change Start ⟨world, tasks⟩ ⟨later, tasks⟩

/-- The systems reached from a world with no program running. -/
def Reachable (act : World → (op : Op) → Outcome → World × Reply op)
    (Change : World → World → Prop) (Start : Program Op Reply α → Prop) (initial : World)
    (system : System World Op Reply α) : Prop :=
  Relation.ReflTransGen (Step act Change Start) ⟨initial, []⟩ system

variable (rules) in
/-- The invariant holds and every running program is safe and ends with `post`. -/
structure Sound (post : World → α → Prop) (system : System World Op Reply α) : Prop where
  invariant : rules.Invariant system.world
  tasks : ∀ task ∈ system.tasks, Safe rules post task system.world

theorem Sound.step {post : World → α → Prop} {Change : World → World → Prop}
    {Start : Program Op Reply α → Prop}
    {system after : System World Op Reply α}
    (changes : ∀ world later, rules.Invariant world → Change world later →
      rules.Invariant later ∧ rules.Grows world later)
    (starts : ∀ program, Start program → ∀ world, rules.Invariant world →
      Safe rules post program world)
    (sound : Sound rules post system) (step : Step rules.act Change Start system after) :
    Sound rules post after := by
  obtain ⟨holds, safe⟩ := sound
  cases step with
  | perform world before rest op next outcome =>
      have own := safe (.call op next) (by simp)
      obtain ⟨kept, grown, safely⟩ := own world (rules.refl world) holds outcome
      refine ⟨kept, ?_⟩
      intro task member
      rcases List.mem_append.mp member with member | member
      · exact (safe task (by simp [member])).later grown
      · rcases List.mem_cons.mp member with rfl | member
        · exact safely
        · exact (safe task (by simp [member])).later grown
  | start world tasks program started =>
      refine ⟨holds, ?_⟩
      intro task member
      rcases List.mem_cons.mp member with rfl | member
      · exact starts task started world holds
      · exact safe task member
  | drop world before rest task =>
      refine ⟨holds, ?_⟩
      intro other member
      rcases List.mem_append.mp member with member | member
      · exact safe other (by simp [member])
      · exact safe other (by simp [member])
  | change world later tasks changed =>
      obtain ⟨kept, grown⟩ := changes world later holds changed
      exact ⟨kept, fun task member => (safe task member).later grown⟩

theorem Reachable.sound {post : World → α → Prop} {Start : Program Op Reply α → Prop}
    {initial : World} {system : System World Op Reply α} (initially : rules.Invariant initial)
    (changes : ∀ world later, rules.Invariant world → Change world later →
      rules.Invariant later ∧ rules.Grows world later)
    (starts : ∀ program, Start program → ∀ world, rules.Invariant world →
      Safe rules post program world) (reached : Reachable rules.act Change Start initial system) :
    Sound rules post system := by
  induction reached with
  | refl => exact ⟨initially, by simp⟩
  | tail _ step ih => exact ih.step changes starts step

/-- A program started and run alone to its end. -/
theorem Reachable.runAlone {act : World → (op : Op) → Outcome → World × Reply op}
    {Start : Program Op Reply α → Prop} {initial : World} {tasks : List (Program Op Reply α)}
    {program : Program Op Reply α} (choose : Op → Outcome) (start : Start program)
    (reached : Reachable act Change Start initial ⟨world, tasks⟩) :
    let after := Interleaving.exec (fun world op => act world op (choose op)) program world
    Reachable act Change Start initial ⟨after.1, .done after.2 :: tasks⟩ := by
  have runs : ∀ (program : Program Op Reply α) (world : World),
      let after := Interleaving.exec (fun world op => act world op (choose op)) program world
      Relation.ReflTransGen (Step act Change Start) ⟨world, program :: tasks⟩
        ⟨after.1, .done after.2 :: tasks⟩ := by
    intro program
    induction program with
    | done result =>
        intro world
        exact .refl
    | call op next ih =>
        intro world
        exact .head (.perform world [] tasks op next (choose op)) (ih _ _)
  exact (reached.tail (.start world tasks program start)).trans (runs program world)

theorem Reachable.exec {act : World → (op : Op) → Outcome → World × Reply op}
    {Start : Program Op Reply α → Prop} {initial : World} {program : Program Op Reply α}
    (choose : Op → Outcome) (start : Start program)
    (reached : Reachable act Change Start initial ⟨world, []⟩) :
    Reachable act Change Start initial
      ⟨(Interleaving.exec (fun world op => act world op (choose op)) program world).1, []⟩ :=
  (reached.runAlone choose start).tail (.drop _ [] [] _)

end interleaved

end Interleaving
