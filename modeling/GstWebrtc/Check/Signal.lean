import Mathlib.Data.List.Basic

/-!
# Signals of the validate client

A `Signal` calls its handlers in the order of their connection.  What a handler
returns is accumulated, and the accumulated value, not the returned one, decides
whether the next handler is called.
-/

namespace GstWebrtc.Check

variable {Args World Value α : Type}

/-! ## Emission -/

/-- A callback, which acts on the state of the program; `none` is Python's `None`. -/
abbrev Handler (Args World Value : Type) := Args → World → Option Value × World

structure Signal (Args World Value : Type) where
  handlers : List (Handler Args World Value)
  /-- Whether what `cont_func` returns is true. -/
  contFunc : Option Value → Bool
  accumFunc : Option Value → Option Value → Option Value

/-- What `fire` returns, the calls it made with what they returned, and the state it leaves. -/
structure Emission (Args World Value : Type) where
  ret : Option Value
  calls : List (Handler Args World Value × Option Value)
  world : World

/-- The truth of a value; `truth` is that of the values other than `None`. -/
def isTrue (truth : Value → Bool) : Option Value → Bool
  | none => false
  | some value => truth value

/-- `lambda x: x is None or x`. -/
def defaultCont (truth : Value → Bool) (x : Option Value) : Bool := x.isNone || isTrue truth x

/-- `lambda prev, v: prev and v`. -/
def defaultAccum (truth : Value → Bool) (prev v : Option Value) : Option Value :=
  if isTrue truth prev then v else prev

namespace Signal

def new (truth : Value → Bool) (contFunc : Option (Option Value → Bool))
    (accumFunc : Option (Option Value → Option Value → Option Value)) :
    Signal Args World Value where
  handlers := []
  contFunc := contFunc.getD (defaultCont truth)
  accumFunc := accumFunc.getD (defaultAccum truth)

def connect (self : Signal Args World Value) (handler : Handler Args World Value) :
    Signal Args World Value :=
  { self with handlers := self.handlers ++ [handler] }

/-- The loop of `fire` over the handlers that are left. -/
def fireFrom (self : Signal Args World Value) (args : Args) :
    Option Value → World → List (Handler Args World Value) → Emission Args World Value
  | ret, world, [] => ⟨ret, [], world⟩
  | ret, world, handler :: rest =>
      let (value, after) := handler args world
      let ret := self.accumFunc ret value
      if self.contFunc ret then
        let last := self.fireFrom args ret after rest
        { last with calls := (handler, value) :: last.calls }
      else ⟨ret, [(handler, value)], after⟩

def fire (self : Signal Args World Value) (args : Args) (world : World) :
    Emission Args World Value :=
  self.fireFrom args none world self.handlers

theorem connect_all (self : Signal Args World Value) (handlers : List (Handler Args World Value)) :
    handlers.foldl connect self = { self with handlers := self.handlers ++ handlers } := by
  induction handlers generalizing self with
  | nil => rw [List.foldl_nil, List.append_nil]
  | cons handler rest ih =>
      rw [List.foldl_cons, ih]
      simp only [connect, List.append_assoc, List.singleton_append]

end Signal

/-! ## The calls of an emission -/

/-- The calls that are made when no handler stops the emission. -/
def callAll (args : Args) : World → List (Handler Args World Value) →
    List (Handler Args World Value × Option Value)
  | _, [] => []
  | world, handler :: rest =>
      (handler, (handler args world).1) :: callAll args (handler args world).2 rest

/-- The elements of a list up to and including the first one that stops. -/
def through (stops : α → Bool) : List α → List α
  | [] => []
  | x :: rest => if stops x then [x] else x :: through stops rest

theorem callAll_map_fst (args : Args) (world : World)
    (handlers : List (Handler Args World Value)) :
    (callAll args world handlers).map Prod.fst = handlers := by
  induction handlers generalizing world with
  | nil => rfl
  | cons handler rest ih => rw [callAll, List.map_cons, ih]

theorem through_prefix_self (stops : α → Bool) (l : List α) : through stops l <+: l := by
  induction l with
  | nil => exact List.prefix_rfl
  | cons x rest ih =>
      rw [through]
      split
      · exact List.prefix_append [x] rest
      · exact List.cons_prefix_cons.mpr ⟨rfl, ih⟩

theorem through_eq_self_iff {stops : α → Bool} {l : List α} :
    through stops l = l ↔ ∀ x ∈ l.dropLast, stops x = false := by
  induction l with
  | nil => simp [through]
  | cons x rest ih =>
      cases rest with
      | nil =>
          rw [through]
          split <;> simp [through]
      | cons y rest =>
          rw [through, List.dropLast_cons_cons, List.forall_mem_cons]
          split
          · next here => simp [here]
          · next on => rw [List.cons.injEq, ih, and_iff_right rfl, and_iff_right (by simpa using on)]

theorem map_through {β : Type} (f : α → β) (stops : β → Bool) (l : List α) :
    (through (fun x => stops (f x)) l).map f = through stops (l.map f) := by
  induction l with
  | nil => rfl
  | cons x rest ih =>
      rw [through, List.map_cons, through]
      split
      · rfl
      · rw [List.map_cons, ih]

namespace Signal

variable (self : Signal Args World Value) (args : Args)

/-- What `fire` returns is accumulated from what the called handlers returned. -/
theorem fireFrom_ret (ret : Option Value) (world : World)
    (handlers : List (Handler Args World Value)) :
    (self.fireFrom args ret world handlers).ret =
      ((self.fireFrom args ret world handlers).calls.map Prod.snd).foldl self.accumFunc ret := by
  induction handlers generalizing ret world with
  | nil => rfl
  | cons handler rest ih =>
      simp only [fireFrom]
      split
      · exact ih _ _
      · rfl

variable {self} {args}

/--
When the value of the last call decides, in the states `ready` of the
accumulator that are met, whether the emission goes on, the calls are those up
to the first one that stops.
-/
theorem fireFrom_calls (stops : Option Value → Bool) (ready : Option Value → Prop)
    (decides : ∀ ret value, ready ret →
      self.contFunc (self.accumFunc ret value) = !stops value)
    (kept : ∀ ret value, ready ret → stops value = false → ready (self.accumFunc ret value))
    {ret : Option Value} (start : ready ret) (world : World)
    (handlers : List (Handler Args World Value)) :
    (self.fireFrom args ret world handlers).calls =
      through (fun call => stops call.2) (callAll args world handlers) := by
  induction handlers generalizing ret world with
  | nil => rfl
  | cons handler rest ih =>
      simp only [fireFrom, callAll, through, decides _ _ start]
      cases stopped : stops (handler args world).1 with
      | true => rfl
      | false => exact congrArg _ (ih (kept _ _ start stopped) _)

end Signal

/--
The handlers are called in the order of their connection, up to and including
the first one that returns a value that stops, and none after it.
-/
def CallsUpTo (stops : Option Value → Bool) (args : Args) (world : World)
    (handlers : List (Handler Args World Value)) (emission : Emission Args World Value) : Prop :=
  emission.calls = through (fun call => stops call.2) (callAll args world handlers)

/-- The handlers that were called are the first ones in the order of their connection. -/
theorem CallsUpTo.in_order {stops : Option Value → Bool} {args : Args} {world : World}
    {handlers : List (Handler Args World Value)} {emission : Emission Args World Value}
    (calls : CallsUpTo stops args world handlers emission) :
    emission.calls.map Prod.fst <+: handlers := by
  have parts := (through_prefix_self (fun call => stops call.2)
    (callAll args world handlers)).map Prod.fst
  rw [callAll_map_fst] at parts
  rw [calls]
  exact parts

/-! ## The default rule -/

section Default

variable (truth : Value → Bool) (args : Args) (world : World)
variable (handlers : List (Handler Args World Value))

/-- A value that is neither `None` nor true. -/
def isFalse : Option Value → Bool
  | none => false
  | some value => !truth value

/-- `Signal()` with its handlers. -/
def defaultSignal : Signal Args World Value :=
  handlers.foldl Signal.connect (Signal.new truth none none)

/-- The value of the emission is false if a called handler returned a false value. -/
def FalseIfAnyFalse (emission : Emission Args World Value) : Prop :=
  (∃ call ∈ emission.calls, isFalse truth call.2 = true) → isFalse truth emission.ret = true

/-- Continue when `None` or a true value is returned, and accumulate truths. -/
structure DefaultRule (emission : Emission Args World Value) : Prop where
  calls : CallsUpTo (isFalse truth) args world handlers emission
  accumulates : FalseIfAnyFalse truth emission

theorem defaultSignal_eq : defaultSignal truth handlers =
    ⟨handlers, defaultCont truth, defaultAccum truth⟩ := by
  rw [defaultSignal, Signal.connect_all]
  rfl

/-- The accumulator starts as `None`, which is not true, and stays so. -/
theorem foldl_defaultAccum (values : List (Option Value)) :
    values.foldl (defaultAccum truth) none = none := by
  induction values with
  | nil => rfl
  | cons value rest ih => exact ih

theorem default_ret : ((defaultSignal truth handlers).fire args world).ret = none := by
  rw [Signal.fire, Signal.fireFrom_ret, defaultSignal_eq]
  exact foldl_defaultAccum truth _

theorem default_calls :
    ((defaultSignal truth handlers).fire args world).calls = callAll args world handlers := by
  rw [Signal.fire, defaultSignal_eq]
  have all : CallsUpTo (fun _ => false) args world handlers (Signal.fireFrom
      ⟨handlers, defaultCont truth, defaultAccum truth⟩ args none world handlers) := by
    refine Signal.fireFrom_calls (fun _ => false) (fun ret => ret = none) ?_ ?_ rfl world handlers
    · intro ret value start
      rw [start]
      rfl
    · intro ret value start _
      rw [start]
      rfl
  exact all.trans (through_eq_self_iff.mpr fun _ _ => rfl)

/--
The emission stops where it should exactly when no handler before the last one
returns a false value, and it follows the whole rule exactly when no handler does.
-/
theorem default_rule_iff :
    (CallsUpTo (isFalse truth) args world handlers
        ((defaultSignal truth handlers).fire args world) ↔
      ∀ call ∈ (callAll args world handlers).dropLast, isFalse truth call.2 = false) ∧
    (DefaultRule truth args world handlers ((defaultSignal truth handlers).fire args world) ↔
      ∀ call ∈ callAll args world handlers, isFalse truth call.2 = false) := by
  have stops : CallsUpTo (isFalse truth) args world handlers
        ((defaultSignal truth handlers).fire args world) ↔
      ∀ call ∈ (callAll args world handlers).dropLast, isFalse truth call.2 = false := by
    rw [CallsUpTo, default_calls, eq_comm, through_eq_self_iff]
  refine ⟨stops, ?_, ?_⟩
  · intro rule call inside
    rw [← default_calls truth args world handlers] at inside
    rw [← Bool.not_eq_true]
    intro returned
    have ret := rule.accumulates ⟨call, inside, returned⟩
    rw [default_ret] at ret
    cases ret
  · intro none
    refine ⟨stops.mpr fun call inside => none call (List.dropLast_subset _ inside), ?_⟩
    rintro ⟨call, inside, returned⟩
    rw [default_calls] at inside
    rw [none call inside] at returned
    cases returned

/-- A handler that returns `False`, connected before one that returns `True`. -/
def falseFirst : List (Handler Unit Unit Bool) :=
  [fun _ _ => (some false, ()), fun _ _ => (some true, ())]

/-- A handler that returns `False` stops nothing, and `fire` returns `None`. -/
theorem false_is_not_accumulated :
    ¬ CallsUpTo (isFalse id) () () falseFirst ((defaultSignal id falseFirst).fire () ()) ∧
    ¬ FalseIfAnyFalse id ((defaultSignal id falseFirst).fire () ()) := by
  constructor
  · intro same
    cases congrArg List.length same
  · intro accumulates
    cases accumulates ⟨_, List.mem_cons_self, rfl⟩

end Default

/-! ## Results of actions -/

/-- The values of `GstValidate.ActionReturn` that `ActionObserver` names. -/
structure ActionReturn (Value : Type) where
  error : Value
  errorReported : Value
  async : Value
  interlaced : Value

namespace ActionReturn

variable [DecidableEq Value] (returns : ActionReturn Value)

/-- `val in [ERROR, ERROR_REPORTED]`. -/
def isError (val : Option Value) : Bool :=
  [some returns.error, some returns.errorReported].contains val

/-- `val in [ASYNC, INTERLACED]`. -/
def isAsync (val : Option Value) : Bool :=
  [some returns.async, some returns.interlaced].contains val

def actionContinue (val : Option Value) : Bool := !returns.isError val

def actionAccum (previous val : Option Value) : Option Value :=
  -- errors are always propagated
  if returns.isError val then val
  else if returns.isError previous then previous
  -- asynchronous returns are preferred
  else if returns.isAsync previous then previous
  else if returns.isAsync val then val
  else val

/-- The signal `action` of an `ActionObserver` with its handlers. -/
def action (truth : Value → Bool) (handlers : List (Handler Args World Value)) :
    Signal Args World Value :=
  handlers.foldl Signal.connect
    (Signal.new truth (some returns.actionContinue) (some returns.actionAccum))

/-- The first error, else the first asynchronous value, else the last value. -/
def prioritised (values : List (Option Value)) : Option Value :=
  ((values.find? returns.isError).or (values.find? returns.isAsync)).getD
    (values.getLast?.getD none)

/-- The calls end with the first error, and the results are combined by priority. -/
structure ActionRule (args : Args) (world : World) (handlers : List (Handler Args World Value))
    (emission : Emission Args World Value) : Prop where
  calls : CallsUpTo returns.isError args world handlers emission
  result : emission.ret = returns.prioritised ((callAll args world handlers).map Prod.snd)
  keepsError : (∃ call ∈ emission.calls, returns.isError call.2 = true) →
    returns.isError emission.ret = true
  keepsAsync : (∃ call ∈ emission.calls, returns.isAsync call.2 = true) →
    returns.isError emission.ret = true ∨ returns.isAsync emission.ret = true

theorem action_eq (truth : Value → Bool) (handlers : List (Handler Args World Value)) :
    returns.action truth handlers = ⟨handlers, returns.actionContinue, returns.actionAccum⟩ := by
  rw [action, Signal.connect_all]
  rfl

variable {returns}

theorem actionAccum_of_not_error {previous : Option Value} (noError : returns.isError previous = false)
    (val : Option Value) : returns.actionAccum previous val =
      if returns.isError val then val
      else if returns.isAsync previous then previous
      else val := by
  rw [actionAccum, noError]
  split
  · rfl
  · rw [if_neg Bool.false_ne_true]
    split
    · rfl
    · exact ite_self _

theorem isError_actionAccum {previous val : Option Value}
    (noError : returns.isError previous = false) :
    returns.isError (returns.actionAccum previous val) = returns.isError val := by
  rw [actionAccum_of_not_error noError]
  split
  · rfl
  · next ok =>
      rw [Bool.not_eq_true] at ok
      split
      · rw [noError, ok]
      · rfl

/-- Up to the first error, the accumulator is the first asynchronous value or the last value. -/
theorem foldl_actionAccum {previous : Option Value} (noError : returns.isError previous = false)
    (values : List (Option Value)) :
    (through returns.isError values).foldl returns.actionAccum previous =
      (values.find? returns.isError).getD
        (if returns.isAsync previous then previous
        else (values.find? returns.isAsync).getD (values.getLast?.getD previous)) := by
  induction values generalizing previous with
  | nil => exact (ite_self _).symm
  | cons val rest ih =>
      rw [through, List.find?_cons]
      have accumulated := actionAccum_of_not_error noError val
      have still : returns.isError (returns.actionAccum previous val) = returns.isError val :=
        isError_actionAccum noError
      cases failed : returns.isError val with
      | true =>
          rw [failed, if_pos rfl] at accumulated
          exact accumulated
      | false =>
          rw [failed, if_neg Bool.false_ne_true] at accumulated
          rw [failed] at still
          rw [if_neg Bool.false_ne_true, List.foldl_cons, ih still, accumulated]
          refine congrArg _ ?_
          cases pending : returns.isAsync previous with
          | true => simp only [if_true, pending]
          | false =>
              simp only [Bool.false_eq_true, if_false, List.find?_cons]
              cases now : returns.isAsync val with
              | true => rfl
              | false => simp [List.getLast?_cons]

theorem isError_none : returns.isError none = false := rfl

theorem isAsync_none : returns.isAsync none = false := rfl

theorem action_calls (truth : Value → Bool) (args : Args) (world : World)
    (handlers : List (Handler Args World Value)) :
    CallsUpTo returns.isError args world handlers
      ((returns.action truth handlers).fire args world) := by
  rw [action_eq]
  refine Signal.fireFrom_calls returns.isError (fun ret => returns.isError ret = false) ?_ ?_
    isError_none _ _
  · intro ret value noError
    exact congrArg Bool.not (isError_actionAccum noError)
  · intro ret value noError ok
    rw [← ok]
    exact isError_actionAccum noError

theorem prioritised_of_error {values : List (Option Value)} {val : Option Value}
    (failed : values.find? returns.isError = some val) : returns.prioritised values = val := by
  rw [prioritised, failed]
  rfl

theorem prioritised_of_async {values : List (Option Value)} {val : Option Value}
    (noError : values.find? returns.isError = none)
    (pending : values.find? returns.isAsync = some val) : returns.prioritised values = val := by
  rw [prioritised, noError, pending]
  rfl

theorem action_ret (truth : Value → Bool) (args : Args) (world : World)
    (handlers : List (Handler Args World Value)) :
    ((returns.action truth handlers).fire args world).ret =
      returns.prioritised ((callAll args world handlers).map Prod.snd) := by
  have calls : CallsUpTo returns.isError args world handlers _ :=
    action_calls truth args world handlers
  rw [CallsUpTo] at calls
  rw [Signal.fire, Signal.fireFrom_ret, ← Signal.fire, calls, map_through Prod.snd, action_eq,
    foldl_actionAccum isError_none, isAsync_none, if_neg Bool.false_ne_true, prioritised,
    Option.getD_or]

variable (returns)

/-- Errors have the first priority and asynchronous results the second, wherever they occur. -/
theorem action_results_prioritised (truth : Value → Bool) (args : Args) (world : World)
    (handlers : List (Handler Args World Value)) :
    returns.ActionRule args world handlers ((returns.action truth handlers).fire args world) := by
  have calls : CallsUpTo returns.isError args world handlers _ :=
    action_calls truth args world handlers
  have among : ∀ call ∈ ((returns.action truth handlers).fire args world).calls,
      call.2 ∈ (callAll args world handlers).map Prod.snd := by
    intro call inside
    rw [calls] at inside
    exact List.mem_map_of_mem ((through_prefix_self _ _).subset inside)
  refine ⟨calls, action_ret truth args world handlers, ?_, ?_⟩
  · rintro ⟨call, inside, failed⟩
    obtain ⟨val, first⟩ := Option.isSome_iff_exists.mp
      (List.find?_isSome.mpr ⟨call.2, among call inside, failed⟩)
    rw [action_ret, prioritised_of_error first]
    exact List.find?_some first
  · rintro ⟨call, inside, pending⟩
    obtain ⟨val, first⟩ := Option.isSome_iff_exists.mp
      (List.find?_isSome.mpr ⟨call.2, among call inside, pending⟩)
    rw [action_ret]
    cases failed : ((callAll args world handlers).map Prod.snd).find? returns.isError with
    | some error =>
        rw [prioritised_of_error failed]
        exact .inl (List.find?_some failed)
    | none =>
        rw [prioritised_of_async failed first]
        exact .inr (List.find?_some first)

end ActionReturn

end GstWebrtc.Check
