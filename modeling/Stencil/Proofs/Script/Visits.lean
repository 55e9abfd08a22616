import Stencil.Proofs.Script.Culprit
import Stencil.Proofs.Script.Scoping

/-!
Array methods with a callback, against their reference: the callback is run on one element after the
other, and the results of these runs decide when the method ends and with which value. The main
statement is `eval_visit`.
-/

namespace Stencil.Script

set_option autoImplicit true

namespace Visit

/-- Whether a method ends with an element, by the result for that element. -/
def Stops : Visit → Value → Prop
  | each, _ => False
  | map, _ => False
  | filter, _ => False
  | some, result => result.truthy = true
  | every, result => result.truthy = false
  | find, result => result.truthy = true

/-- The value of a method that ends with an element before it has come to the end. -/
def stopped : Visit → Value → Value
  | some, _ => .bool true
  | every, _ => .bool false
  | find, item => item
  | _, _ => .null

/-- The value of a method that has come to the end, with a result for each element. -/
def whole (visit : Visit) (items results : List Value) : Value :=
  match visit with
  | each => .null
  | map => .array results
  | filter => .array (((items.zip results).filter fun pair => pair.2.truthy).map Prod.fst)
  | some => .bool false
  | every => .bool true
  | find => .null

end Visit

/-- The callback is run on elements one after the other, each time from the state that the run
before has left, and gives these results. -/
inductive Calls (call : Value → Nat → Exec Value) :
    (index : Nat) → State → List Value → List Value → State → Prop
  | nil : Calls call index s [] [] s
  | cons (h : call item index s = .ok result t) (hc : Calls call (index + 1) t items results u) :
    Calls call index s (item :: items) (result :: results) u

/-- How a method ends that runs the callback from left to right: having come to the end, having
stopped with an element, or with the error of a run. -/
inductive Visit.Ends (visit : Visit) (call : Value → Nat → Exec Value) (index : Nat) (s : State)
    (items : List Value) : EStateM.Result Halt State Value → Prop
  | whole (h : Calls call index s items results t) (hs : ∀ result ∈ results, ¬visit.Stops result) :
    Ends visit call index s items (.ok (visit.whole items results) t)
  | stopped (hi : items = before ++ item :: after) (h : Calls call index s before results t)
    (hs : ∀ result ∈ results, ¬visit.Stops result)
    (hc : call item (index + before.length) t = .ok result u) (hr : visit.Stops result) :
    Ends visit call index s items (.ok (visit.stopped item) u)
  | failed (hi : items = before ++ item :: after) (h : Calls call index s before results t)
    (hs : ∀ result ∈ results, ¬visit.Stops result)
    (hc : call item (index + before.length) t = .error e u) :
    Ends visit call index s items (.error e u)

theorem Calls.length (h : Calls call index s items results t) : results.length = items.length := by
  induction h with
  | nil => rfl
  | cons _ _ ih => exact congrArg (· + 1) ih

namespace Visit

variable {visit : Visit} {call : Value → Nat → Exec Value} {s t : State}

theorem stop?_eq_none (h : ¬visit.Stops result) (item : Value) :
    visit.stop? item result = none := by
  cases visit with
  | each | map | filter => rfl
  | some => exact if_neg h
  | every => exact if_pos (eq_true_of_ne_false h)
  | find => exact if_neg h

theorem stop?_eq_some (h : visit.Stops result) (item : Value) :
    visit.stop? item result = Option.some (visit.stopped item) := by
  cases visit with
  | each | map | filter => exact h.elim
  | some => exact if_pos h
  | every => exact if_neg (ne_true_of_eq_false h)
  | find => exact if_pos h

/-- What elements with these results add to the value. -/
def keptAll (visit : Visit) (items results : List Value) : List Value :=
  (items.zip results).flatMap fun pair => visit.kept pair.1 pair.2

/-- An element adds one value at most. -/
theorem reverse_kept (visit : Visit) (item result : Value) :
    (visit.kept item result).reverse = visit.kept item result := by
  cases visit with
  | filter =>
    dsimp only [kept]
    split <;> rfl
  | _ => rfl

theorem final_keptAll (h : results.length = items.length) :
    visit.final (visit.keptAll items results) = visit.whole items results := by
  cases visit with
  | map =>
    have hk : (items.zip results).flatMap (fun pair => [pair.2]) = results := by
      rw [← List.map_eq_flatMap, List.map_snd_zip (Nat.le_of_eq h)]
    exact congrArg Value.array hk
  | filter =>
    have hk (pairs : List (Value × Value)) :
        (pairs.flatMap fun pair => filter.kept pair.1 pair.2) =
          (pairs.filter fun pair => pair.2.truthy).map Prod.fst := by
      induction pairs with
      | nil => rfl
      | cons pair pairs ih =>
        rw [List.flatMap_cons, ih, List.filter_cons, kept]
        split <;> rfl
    rw [final, whole, keptAll, hk]
  | _ => rfl

/-- Elements with which the method does not stop are passed by. -/
theorem run_append (h : Calls call index s before results t)
    (hs : ∀ result ∈ results, ¬visit.Stops result) (soFar after : List Value) :
    visit.run call soFar index (before ++ after) s =
      visit.run call ((visit.keptAll before results).reverse ++ soFar) (index + before.length)
        after t := by
  induction h generalizing soFar with
  | nil => rfl
  | @cons item index s result t items results u hc _ ih =>
    obtain ⟨hr, hrest⟩ := List.forall_mem_cons.mp hs
    rw [List.cons_append, run, bind_eq_of_ok hc, stop?_eq_none hr]
    dsimp only
    rw [ih hrest, List.length_cons, keptAll, keptAll, List.zip_cons_cons, List.flatMap_cons,
      List.reverse_append, reverse_kept, List.append_assoc, Nat.add_assoc, Nat.add_comm 1]

/-- A method ends only as its reference does. -/
theorem Ends.eq_run (h : visit.Ends call index s items r) :
    visit.run call [] index items s = r := by
  cases h with
  | whole h hs =>
    have he := run_append h hs [] []
    rw [List.append_nil, List.append_nil] at he
    rw [he, run, List.reverse_reverse, final_keptAll h.length]
    rfl
  | stopped hi h hs hc hr =>
    rw [hi, run_append h hs, run, bind_eq_of_ok hc, stop?_eq_some hr]
    rfl
  | failed hi h hs hc => rw [hi, run_append h hs, run, bind_eq_of_error hc]

theorem Ends.cons (hc : call item index s = .ok result t) (hr : ¬visit.Stops result)
    (h : visit.Ends call (index + 1) t items r) :
    ∃ r', visit.Ends call index s (item :: items) r' := by
  have hpast {results : List Value} (hs : ∀ result ∈ results, ¬visit.Stops result) :
      ∀ other ∈ result :: results, ¬visit.Stops other := List.forall_mem_cons.mpr ⟨hr, hs⟩
  have hindex (before : List Value) :
      index + 1 + before.length = index + (item :: before).length := by
    rw [List.length_cons, Nat.add_assoc, Nat.add_comm 1]
  cases h with
  | whole h hs => exact ⟨_, .whole (.cons hc h) (hpast hs)⟩
  | stopped hi h hs hc' hr' =>
    rw [hindex] at hc'
    exact ⟨_, .stopped (congrArg (item :: ·) hi) (.cons hc h) (hpast hs) hc' hr'⟩
  | failed hi h hs hc' =>
    rw [hindex] at hc'
    exact ⟨_, .failed (congrArg (item :: ·) hi) (.cons hc h) (hpast hs) hc'⟩

/-- The reference always tells how a method ends. -/
theorem exists_ends (visit : Visit) (call : Value → Nat → Exec Value) (index : Nat) (s : State)
    (items : List Value) : ∃ r, visit.Ends call index s items r := by
  induction items generalizing index s with
  | nil => exact ⟨_, .whole .nil nofun⟩
  | cons item items ih =>
    have hi : item :: items = [] ++ item :: items := rfl
    cases hc : call item index s with
    | error e t => exact ⟨_, .failed hi .nil nofun hc⟩
    | ok result t =>
      by_cases hr : visit.Stops result
      · exact ⟨_, .stopped hi .nil nofun hc hr⟩
      · obtain ⟨r, h⟩ := ih (index + 1) t
        exact h.cons hc hr

theorem run_eq_iff_ends : visit.run call [] index items s = r ↔ visit.Ends call index s items r := by
  constructor
  · rintro rfl
    obtain ⟨r, h⟩ := exists_ends visit call index s items
    rwa [h.eq_run]
  · exact Ends.eq_run

end Visit

/-- Expressions leave the line in place. -/
theorem line_of_eval (h : eval scope limit e s = .ok v t) : t.line = s.line := by
  have ha := (told_eval hereditary_true scope limit e trivial s.line).alike rfl
  rw [h] at ha
  generalize evalTraced scope limit e s = r at ha
  cases ha with
  | ok hl => exact hl

/-- A call of the callback of an array method: it gets the element, its index, and the array. -/
def callOn (scope : Scope) (limit : Nat) (params : List String) (body : List Stmt)
    (items : List Value) (item : Value) (index : Nat) : Exec Value :=
  callback params [item, .ofNat index, .array items] (run scope limit body)

/-- An array method with a callback goes through the elements that the receiver has had before the
first call. -/
theorem eval_method_function (ht : eval scope limit target s = .ok (.array items) t)
    (hv : Visit.ofName? name = some visit) (params : List String) (body : List Stmt) :
    eval scope limit (.method target name [.function params body]) s =
      visit.run (callOn scope limit params body items) [] 0 items t := by
  have hm : visited (.array items) name = .ok (visit, items) := by
    simp only [visited, hv]
  rw [eval, bind_eq_of_ok ht]
  dsimp only
  rw [hm]
  rfl

/-- An array method with a callback ends as its reference does, which goes through the elements that
the receiver has had before the first call; and if all goes well, the line is what it was. -/
theorem eval_visit (ht : eval scope limit target s = .ok (.array items) t)
    (hv : Visit.ofName? name = some visit) (params : List String) (body : List Stmt) :
    (∀ r, eval scope limit (.method target name [.function params body]) s = r ↔
      visit.Ends (callOn scope limit params body items) 0 t items r) ∧
    ∀ v u, eval scope limit (.method target name [.function params body]) s = .ok v u →
      u.line = s.line := by
  refine ⟨fun r => ?_, fun v u => line_of_eval⟩
  rw [eval_method_function ht hv]
  exact Visit.run_eq_iff_ends

/-- The array that is searched. -/
def searched : Expr := .array [.value .null, .value (.bool true), .value .null]

/-- A callback that puts out a mark and gives its element back. -/
def marking : List Stmt := [.text "-", .giveBack (some (.ident "x"))]

/-- The search ends with the second of three elements. -/
theorem eval_visit_find :
    eval bareScope 0 searched .initial =
        .ok (.array [.null, .bool true, .null]) .initial ∧
      Visit.ofName? "find" = some .find ∧
      eval bareScope 0 (.method searched "find" [.function ["x"] marking]) .initial =
        .ok (.bool true) (State.initial.write "--") := by
  have ht : eval bareScope 0 searched .initial =
      .ok (.array [.null, .bool true, .null]) .initial := rfl
  have hv : Visit.ofName? "find" = some .find := rfl
  have hnull : ∀ result ∈ [Value.null], ¬Visit.find.Stops result :=
    List.forall_mem_singleton.mpr Bool.false_ne_true
  refine ⟨ht, hv, ((eval_visit ht hv ["x"] marking).1 _).mpr ?_⟩
  have hi : [Value.null, .bool true, .null] = [.null] ++ .bool true :: [.null] := rfl
  exact .stopped hi (.cons rfl .nil) hnull rfl rfl

end Stencil.Script
