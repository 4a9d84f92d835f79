import Mathlib.Data.List.Induction
import Mathlib.Data.List.Nodup
import SceneTree.Resolve

/-!
# The arguments of an instance

An instance gets its arguments when its record is resolved. The parameters
of its component come first, with their own values, and the custom
properties of the record are written over them one after another. A
property is written where its name stands first, and under a name that
does not stand there yet at the end.

Looking up a name finds where it stands first. So of several properties of
one name the last one counts, whatever indices they have the name by, and
without any the first parameter of the name does
(`Role.lookup_argumentsOf`). The names stay where they are: those of the
parameters, and after them the others in the order in which they were
first used (`Role.keys_argumentsOf`).
-/

namespace SceneTree

/-- What is used again stays where it was used first. -/
theorem eraseDups_concat {α : Type} [DecidableEq α] (l : List α) (a : α) :
    (l ++ [a]).eraseDups = if a ∈ l then l.eraseDups else l.eraseDups ++ [a] := by
  rw [List.eraseDups_append, List.removeAll]
  by_cases ha : a ∈ l
  · simp [ha]
  · simp [ha, List.eraseDups_cons]

/-- The parameters of a component with their own values; without a
component there are none. -/
def Component.defaults (component : Option Component) : List (String × Value) :=
  match component with
  | some c => c.parameters.map fun p => (p.name, p.fallback)
  | none => []

namespace Role

variable {d : Document} {r : Record} {component : Option Component} {key name : String} {v : Value}
  {arguments : List (String × Value)}

/-! ## One property -/

/-- The argument that a custom property is for: what its key resolves to,
unless that is reserved. -/
def argumentKey? (d : Document) (c : Custom) : Option String :=
  (d.string? c.key).filter fun key => key ≠ Document.componentKey ∧ key ≠ Document.slotKey

/-- The arguments after one custom property. -/
def pass (d : Document) (arguments : List (String × Value)) (c : Custom) : List (String × Value) :=
  match argumentKey? d c with
  | none => arguments
  | some key => setArgument key c.value arguments

theorem argumentsOf_eq (d : Document) (r : Record) (component : Option Component) :
    argumentsOf d r component = r.customs.foldl (pass d) (Component.defaults component) := by
  unfold argumentsOf
  refine congrArg (List.foldl · _ _) (funext fun arguments => funext fun c => ?_)
  rw [pass, argumentKey?]
  cases d.string? c.key with
  | none => rfl
  | some key =>
    rw [Option.filter_some]
    by_cases hreserved : key = Document.componentKey ∨ key = Document.slotKey
    · simp [hreserved, not_or.symm]
    · simp [not_or.mp hreserved]

theorem lookup_cons_eq {rest : List (String × Value)} :
    ((name, v) :: rest).lookup key = if key = name then some v else rest.lookup key := by
  by_cases hk : key = name
  · rw [if_pos hk, List.lookup_cons, beq_iff_eq.mpr hk]
  · rw [if_neg hk, List.lookup_cons, beq_false_of_ne hk]

/-- An argument that is set is found, and the others stay. -/
theorem lookup_setArgument : (setArgument name v arguments).lookup key =
    if key = name then some v else arguments.lookup key := by
  induction arguments with
  | nil => exact lookup_cons_eq
  | cons a rest ih =>
    obtain ⟨first, old⟩ := a
    rw [setArgument, lookup_cons_eq]
    by_cases hfirst : first = name
    · rw [if_pos hfirst, lookup_cons_eq, hfirst]
      split
      next => rfl
      next => rfl
    · rw [if_neg hfirst, lookup_cons_eq, ih]
      by_cases hk : key = first
      · rw [if_pos hk, if_pos hk, if_neg (hk ▸ hfirst)]
      · rw [if_neg hk, if_neg hk]

/-- No name moves, and a new one goes to the end. -/
theorem keys_setArgument : (setArgument name v arguments).map (·.1) =
    if name ∈ arguments.map (·.1) then arguments.map (·.1) else arguments.map (·.1) ++ [name] := by
  induction arguments with
  | nil => rfl
  | cons a rest ih =>
    obtain ⟨first, old⟩ := a
    rw [setArgument]
    by_cases hfirst : first = name
    · simp [hfirst]
    · rw [if_neg hfirst, List.map_cons, ih, List.map_cons]
      simp only [List.mem_cons, Ne.symm hfirst, false_or]
      split
      next => rfl
      next => rfl

/-! ## All properties -/

/-- What the last of the properties for an argument gives it. -/
def passed? (d : Document) (customs : List Custom) (key : String) : Option Value :=
  (customs.filter fun c => argumentKey? d c = some key).getLast?.map (·.value)

theorem lookup_foldl_pass (customs : List Custom) :
    (customs.foldl (pass d) arguments).lookup key =
      (passed? d customs key).or (arguments.lookup key) := by
  -- from the end, as the last property is the one that counts
  induction customs using List.reverseRecOn with
  | nil => rfl
  | append_singleton customs c ih =>
    rw [List.foldl_append, List.foldl_cons, List.foldl_nil, pass, passed?, List.filter_append]
    cases hc : argumentKey? d c with
    | none =>
      simpa [hc, passed?] using ih
    | some k =>
      dsimp only
      rw [lookup_setArgument, ih]
      by_cases hk : key = k
      · simp [hc, hk]
      · simp [hc, hk, Ne.symm hk, passed?]

/-- The names that are not there yet come after those that are, in the order
in which they are first used. -/
theorem keys_foldl_pass (customs : List Custom) :
    (customs.foldl (pass d) arguments).map (·.1) =
      arguments.map (·.1) ++ ((customs.filterMap (argumentKey? d)).filter
        (· ∉ arguments.map (·.1))).eraseDups := by
  induction customs using List.reverseRecOn with
  | nil => exact (List.append_nil _).symm
  | append_singleton customs c ih =>
    rw [List.foldl_append, List.foldl_cons, List.foldl_nil, pass, List.filterMap_append,
      List.filter_append]
    cases hc : argumentKey? d c with
    | none => simpa [hc] using ih
    | some k =>
      dsimp only
      have hlast : [c].filterMap (argumentKey? d) = [k] := by simp [hc]
      rw [keys_setArgument, ih, hlast]
      by_cases hold : k ∈ arguments.map (·.1)
      · simp [hold]
      · have hnew : [k].filter (· ∉ arguments.map (·.1)) = [k] :=
          List.filter_eq_self.mpr fun a ha => by
            cases List.mem_singleton.mp ha
            exact decide_eq_true hold
        rw [hnew, eraseDups_concat]
        simp only [List.mem_append, hold, false_or, List.mem_eraseDups]
        split
        next => rfl
        next => exact List.append_assoc _ _ _

theorem nodup_foldl_pass (h : (arguments.map (·.1)).Nodup) (customs : List Custom) :
    ((customs.foldl (pass d) arguments).map (·.1)).Nodup := by
  induction customs generalizing arguments with
  | nil => exact h
  | cons c customs ih =>
    refine ih ?_
    rw [pass]
    split
    next => exact h
    next key hkey =>
      rw [keys_setArgument]
      split
      next => exact h
      next hnew =>
        exact h.append (List.nodup_singleton key) (List.disjoint_singleton.mpr hnew)

/-! ## The arguments of a record -/

/-- An argument is what the last property for it gives, or else what the
component has by itself. -/
theorem lookup_argumentsOf (d : Document) (r : Record) (component : Option Component)
    (key : String) : (argumentsOf d r component).lookup key =
      (passed? d r.customs key).or ((Component.defaults component).lookup key) := by
  rw [argumentsOf_eq, lookup_foldl_pass]

/-- The parameters stand first, as they are declared, and then the other
names, as they are used. -/
theorem keys_argumentsOf (d : Document) (r : Record) (component : Option Component) :
    (argumentsOf d r component).map (·.1) =
      (Component.defaults component).map (·.1) ++ ((r.customs.filterMap (argumentKey? d)).filter
        (· ∉ (Component.defaults component).map (·.1))).eraseDups := by
  rw [argumentsOf_eq, keys_foldl_pass]

/-- No name stands twice unless a parameter was declared twice. -/
theorem nodup_argumentsOf (r : Record) (h : ((Component.defaults component).map (·.1)).Nodup) :
    ((argumentsOf d r component).map (·.1)).Nodup := by
  rw [argumentsOf_eq]
  exact nodup_foldl_pass h r.customs

end Role

end SceneTree
