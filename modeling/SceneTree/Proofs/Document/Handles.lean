import SceneTree.Document.Builder

/-!
# What a builder hands out

A builder answers indices of strings and paths, and ids of styles, long
before there is a document to look them up in. Between the answer and the
document the tables are shared: components take their strings while they
are registered, elements when the document is made.

None of this moves an entry, because a table only ever grows at its end
(`Tables.Grown`), whatever is written with it (`Tables.Grows`). So an index
that was answered once is good in the document, and as a table has no entry
twice, it is good for its own string alone.

The ids of styles count up to 255 and stay there. Under the last one stands
the style that got it first (`Builder.handles_resolve`).
-/

namespace SceneTree

namespace Tables

/-- No entry stands twice, and each has an index of its own. -/
structure Sound (t : Tables) : Prop where
  strings_nodup : t.strings.Nodup
  strings_room : t.strings.length + 1 ≤ room
  resources_nodup : t.resources.Nodup
  resources_room : t.resources.length ≤ room

theorem sound_blank : blank.Sound := by
  constructor <;> decide

/-- A later state of the tables: what was in them has kept its place. -/
structure Grown (t t' : Tables) : Prop where
  strings : t.strings <+: t'.strings
  resources : t.resources <+: t'.resources
  sound : t.Sound → t'.Sound

namespace Grown

variable {t t' t'' : Tables}

theorem refl (t : Tables) : Grown t t :=
  ⟨List.prefix_refl _, List.prefix_refl _, id⟩

theorem trans (h : Grown t t') (h' : Grown t' t'') : Grown t t'' :=
  ⟨h.strings.trans h'.strings, h.resources.trans h'.resources, h'.sound ∘ h.sound⟩

theorem note (t : Tables) (ns : List Notice) : Grown t (t.note ns) :=
  ⟨List.prefix_refl _, List.prefix_refl _, fun h => ⟨h.1, h.2, h.3, h.4⟩⟩

end Grown

/-- Whatever is written with the tables, they only grow. -/
def Grows {α : Type} (m : StateM Tables α) : Prop := ∀ t, Grown t (m.run t).2

section Writing

variable {α β : Type} {m : StateM Tables α} {f : α → StateM Tables β}

theorem Grows.pure (a : α) : Grows (Pure.pure a) := Grown.refl

theorem Grows.bind (hm : Grows m) (hf : ∀ a, Grows (f a)) : Grows (m >>= f) := fun t =>
  (hm t).trans (hf (m.run t).1 (m.run t).2)

theorem Grows.mapM {f : α → StateM Tables β} (hf : ∀ a, Grows (f a)) (l : List α) :
    Grows (l.mapM f) := by
  induction l with
  | nil => exact .pure []
  | cons a l ih =>
    rw [List.mapM_cons]
    exact (hf a).bind fun b => ih.bind fun bs => .pure (b :: bs)

theorem nodup_snoc {l : List α} {a : α} (h : l.Nodup) (ha : a ∉ l) : (l ++ [a]).Nodup := by
  simpa [List.nodup_append, h] using fun b hb (heq : b = a) => ha (heq ▸ hb)

/-- A new string goes to the end. -/
theorem grows_intern (s : String) : Grows (intern s) := by
  intro t
  show Grown t (intern s t).2
  unfold intern
  split
  next => exact .refl t
  next hnew =>
    split
    next hroom =>
      have hs : s ∉ t.strings := by simpa using hnew
      refine ⟨List.prefix_append _ _, List.prefix_refl _, fun h => ?_⟩
      refine ⟨nodup_snoc h.strings_nodup hs, ?_, h.resources_nodup, h.resources_room⟩
      rw [List.length_append]
      exact hroom
    next => exact .note t _

/-- So does a new path. -/
theorem grows_addResource (path : String) : Grows (addResource path) := by
  intro t
  show Grown t (addResource path t).2
  unfold addResource
  split
  next => exact .refl t
  next hnew =>
    split
    next hroom =>
      have hpath : path ∉ t.resources := by simpa using hnew
      refine ⟨List.prefix_refl _, List.prefix_append _ _, fun h => ?_⟩
      refine ⟨h.strings_nodup, h.strings_room, nodup_snoc h.resources_nodup hpath, ?_⟩
      rw [List.length_append]
      exact hroom
    next => exact .note t _

theorem grows_resolve (o : Operand) : Grows (resolve o) := by
  cases o with
  | value v => exact .pure v
  | text s => exact (grows_intern s).bind fun i => .pure (Value.string i)
  | path p => exact (grows_addResource p).bind fun i => .pure (Value.resource i)

/-- The name comes first, and the rest is the same with any name. -/
theorem grows_toRecord (d : Draft) : Grows d.toRecord := by
  unfold Draft.toRecord
  extract_lets header rest
  have hproperty (p : Attribute × Operand) :
      Grows (do return Property.mk p.1 (← resolve p.2)) :=
    (grows_resolve p.2).bind fun v => .pure _
  have hcustom (c : String × Operand) :
      Grows (do let key ← intern c.1; return Custom.mk key (← resolve c.2)) :=
    (grows_intern c.1).bind fun key => (grows_resolve c.2).bind fun v => .pure _
  have htrigger (e : Event × String) :
      Grows (do return Trigger.mk e.1.toByte (← intern e.2)) :=
    (grows_intern e.2).bind fun i => .pure _
  have hrest (nameIndex : UInt8) : Grows (rest nameIndex) :=
    (Grows.mapM hproperty d.properties).bind fun properties =>
      (Grows.mapM hcustom d.customs).bind fun customs =>
        (Grows.mapM htrigger d.triggers).bind fun triggers => .pure _
  split
  next name _ => exact (grows_intern name).bind hrest
  next => exact (Grows.pure 0).bind hrest

theorem grows_toRecords (o : Outline) : Grows o.toRecords := by
  have hbare : Grows (o.nodes.mapM (·.draft.toRecord)) :=
    Grows.mapM (fun n => grows_toRecord n.draft) o.nodes
  have hnote (ns : List Notice) : Grows (modify (·.note ns) : StateM Tables PUnit) :=
    fun t => Grown.note t ns
  exact hbare.bind fun bare => (hnote _).bind fun _ => .pure _

end Writing

/-! ## The answers of the tables -/

section Answers

variable {t t' : Tables} {s s' : String} {i i' : UInt8}

/-- The index that was answered for a string, unless that was noted, is where
the string now stands, the reserved entry counted. -/
theorem getElem?_of_intern (h : t.Sound)
    (hnotes : ((intern s).run t).2.notices = t.notices) :
    ∃ n, ((intern s).run t).1.toNat = n + 1 ∧ ((intern s).run t).2.strings[n]? = some s := by
  have hroom := h.strings_room
  simp only [room] at hroom
  change (intern s t).2.notices = t.notices at hnotes
  show ∃ n, (intern s t).1.toNat = n + 1 ∧ (intern s t).2.strings[n]? = some s
  unfold intern at hnotes ⊢
  split
  next n hn =>
    obtain ⟨hlt, heq, -⟩ := List.idxOf?_eq_some_iff.mp hn
    refine ⟨n, UInt8.toNat_ofNat_of_lt' (by simp [UInt8.size]; omega), ?_⟩
    rw [List.getElem?_eq_getElem hlt, heq]
  next hnew =>
    rw [hnew] at hnotes
    split
    next hlt =>
      refine ⟨t.strings.length, UInt8.toNat_ofNat_of_lt' hlt, ?_⟩
      simp
    next hfull =>
      simp [hfull, Tables.note] at hnotes

/-- So is the index that was answered for a path. -/
theorem getElem?_of_addResource (h : t.Sound)
    (hnotes : ((addResource s).run t).2.notices = t.notices) :
    ((addResource s).run t).2.resources[((addResource s).run t).1.toNat]? = some s := by
  have hroom := h.resources_room
  simp only [room] at hroom
  change (addResource s t).2.notices = t.notices at hnotes
  show (addResource s t).2.resources[(addResource s t).1.toNat]? = some s
  unfold addResource at hnotes ⊢
  split
  next n hn =>
    obtain ⟨hlt, heq, -⟩ := List.idxOf?_eq_some_iff.mp hn
    rw [UInt8.toNat_ofNat_of_lt' (by simp [UInt8.size]; omega), List.getElem?_eq_getElem hlt, heq]
  next hnew =>
    rw [hnew] at hnotes
    split
    next hlt =>
      rw [UInt8.toNat_ofNat_of_lt' hlt]
      simp
    next hfull => simp [hfull, Tables.note] at hnotes

end Answers

end Tables

/-! ## Calls -/

/-- One call to a builder. -/
inductive BuilderCall where
  | push (draft : Draft) (parent : Option Nat)
  | link (parent child : Nat)
  | addBareRef (parent : Nat) (distance : UInt16)
  | intern (s : String)
  | addResource (path : String)
  | addStyle (name : String) (properties : List Property)
  | addComponent (name : String) (parameters : List Parameter) (template : Outline)

namespace BuilderCall

/-- The builder after a call. -/
def apply (b : Builder) : BuilderCall → Builder
  | .push draft parent => (b.push draft parent).2
  | .link parent child => b.link parent child
  | .addBareRef parent distance => b.addBareRef parent distance
  | .intern s => (b.intern s).2
  | .addResource path => (b.addResource path).2
  | .addStyle name properties => (b.addStyle name properties).2
  | .addComponent name parameters template => b.addComponent name parameters template

/-- The name and the properties of the style that a call registers. -/
def style? : BuilderCall → Option (String × List Property)
  | .addStyle name properties => some (name, properties)
  | _ => none

theorem grown (c : BuilderCall) (b : Builder) : b.tables.Grown (c.apply b).tables := by
  cases c with
  | push | link | addBareRef => exact .note b.tables _
  | intern s => exact Tables.grows_intern s b.tables
  | addResource path => exact Tables.grows_addResource path b.tables
  | addStyle => exact .refl b.tables
  | addComponent name parameters template =>
    exact (Tables.Grown.note b.tables _).trans (Tables.grows_toRecords template _)

end BuilderCall

namespace Builder

/-- The builder after some calls. -/
def after (calls : List BuilderCall) : Builder := calls.foldl BuilderCall.apply blank

variable {calls before : List BuilderCall} {b : Builder} {s s' : String} {i i' : UInt8}

theorem after_snoc (calls : List BuilderCall) (c : BuilderCall) :
    after (calls ++ [c]) = c.apply (after calls) := by
  rw [after, List.foldl_append]
  rfl

theorem grown_after (h : before <+: calls) :
    (after before).tables.Grown (after calls).tables := by
  obtain ⟨rest, rfl⟩ := h
  induction rest generalizing before with
  | nil => exact (List.append_nil before).symm ▸ .refl _
  | cons c rest ih =>
    have hstep : (after before).tables.Grown (after (before ++ [c])).tables := by
      rw [after_snoc]
      exact c.grown _
    rw [List.append_cons]
    exact hstep.trans ih

theorem sound_tables (calls : List BuilderCall) : (after calls).tables.Sound :=
  (grown_after (List.nil_prefix (l := calls))).sound Tables.sound_blank

/-- The tables when the document is made. -/
def finalTables (b : Builder) : Tables := (b.outline.toRecords.run b.tables).2

theorem grown_finalTables (h : before <+: calls) :
    (after before).tables.Grown (after calls).finalTables :=
  (grown_after h).trans (Tables.grows_toRecords _ _)

theorem sound_finalTables (calls : List BuilderCall) : (after calls).finalTables.Sound :=
  (grown_finalTables (List.prefix_refl calls)).sound (sound_tables calls)

/-! ### Strings and paths -/

/-- One of the calls asks for the index of a string, and the answer is `i`,
with nothing noted: there was room. -/
def Interned (calls : List BuilderCall) (s : String) (i : UInt8) : Prop :=
  ∃ before, before ++ [.intern s] <+: calls ∧
    let (answer, b) := (after before).intern s
    answer = i ∧ b.tables.notices = (after before).tables.notices

/-- One of the calls asks for the index of a path, and the answer is `i`,
with nothing noted. -/
def Stored (calls : List BuilderCall) (path : String) (i : UInt8) : Prop :=
  ∃ before, before ++ [.addResource path] <+: calls ∧
    let (answer, b) := (after before).addResource path
    answer = i ∧ b.tables.notices = (after before).tables.notices

/-- A list that goes on has what it had, where it was. -/
theorem getElem?_of_longer {α : Type} {l l' : List α} {n : Nat} {a : α} (h : l <+: l')
    (hn : l[n]? = some a) : l'[n]? = some a := by
  obtain ⟨hlt, rfl⟩ := List.getElem?_eq_some_iff.mp hn
  exact List.prefix_iff_getElem?.mp h n hlt

/-- A string keeps the place it was given. The reserved entry is before all
of them. -/
theorem Interned.stands (h : Interned calls s i) :
    ∃ n, i.toNat = n + 1 ∧ (after calls).finalTables.strings[n]? = some s := by
  obtain ⟨before, hcalls, rfl, hnotes⟩ := h
  obtain ⟨n, hn, hs⟩ := Tables.getElem?_of_intern (sound_tables before) hnotes
  have hgrown := grown_finalTables hcalls
  rw [after_snoc] at hgrown
  exact ⟨n, hn, getElem?_of_longer hgrown.strings hs⟩

/-- So does a path. -/
theorem Stored.stands (h : Stored calls s i) :
    (after calls).finalTables.resources[i.toNat]? = some s := by
  obtain ⟨before, hcalls, rfl, hnotes⟩ := h
  have hs := Tables.getElem?_of_addResource (sound_tables before) hnotes
  have hgrown := grown_finalTables hcalls
  rw [after_snoc] at hgrown
  exact getElem?_of_longer hgrown.resources hs

/-- In a table without repetition a place is told by what stands there. -/
theorem eq_iff_of_getElem? {α : Type} {l : List α} {n n' : Nat} {a a' : α} (hl : l.Nodup)
    (hn : l[n]? = some a) (hn' : l[n']? = some a') : n = n' ↔ a = a' := by
  rw [← List.getElem?_inj (List.getElem?_eq_some_iff.mp hn).1 hl, hn, hn', Option.some_inj]

theorem Interned.eq_iff (h : Interned calls s i) (h' : Interned calls s' i') :
    i = i' ↔ s = s' := by
  obtain ⟨n, hn, hs⟩ := h.stands
  obtain ⟨n', hn', hs'⟩ := h'.stands
  rw [← eq_iff_of_getElem? (sound_finalTables calls).strings_nodup hs hs', ← UInt8.toNat_inj]
  omega

theorem Stored.eq_iff (h : Stored calls s i) (h' : Stored calls s' i') : i = i' ↔ s = s' := by
  rw [← eq_iff_of_getElem? (sound_finalTables calls).resources_nodup h.stands h'.stands,
    ← UInt8.toNat_inj]

/-! ### Styles -/

/-- The names and the properties of the styles that some calls register, in
order. -/
def registered (calls : List BuilderCall) : List (String × List Property) :=
  calls.filterMap BuilderCall.style?

/-- A style after `n` others. Its id is their number and one, as long as a
byte can say it. -/
def numbered (n : Nat) (p : String × List Property) : Style :=
  { id := UInt8.ofNat (min (n + 1) 255), name := p.1, properties := p.2 }

theorem toNat_id_numbered (n : Nat) (p : String × List Property) :
    (numbered n p).id.toNat = min (n + 1) 255 :=
  UInt8.toNat_ofNat_of_lt' (Nat.lt_of_le_of_lt (Nat.min_le_right _ _) (by decide))

/-- The ids are the same only if the numbers are, or both are past the last
id. -/
theorem id_numbered_inj {n m : Nat} {p q : String × List Property} :
    (numbered n p).id = (numbered m q).id ↔ min n 254 = min m 254 := by
  rw [← UInt8.toNat_inj, toNat_id_numbered, toNat_id_numbered]
  omega

theorem styles_apply (c : BuilderCall) (b : Builder) :
    (c.apply b).styles = b.styles ++ (c.style?.map (numbered b.styles.length)).toList := by
  cases c with
  | addStyle => rfl
  | _ => exact (List.append_nil _).symm

theorem styles_foldl (calls : List BuilderCall) (b : Builder) :
    (calls.foldl BuilderCall.apply b).styles =
      b.styles ++ (registered calls).mapIdx fun n => numbered (b.styles.length + n) := by
  induction calls generalizing b with
  | nil => exact (List.append_nil _).symm
  | cons c calls ih =>
    rw [List.foldl_cons, ih, styles_apply, List.append_assoc, registered, registered,
      List.filterMap_cons]
    cases hc : c.style? with
    | none => simp
    | some p => simp [List.mapIdx_cons, Nat.add_assoc, Nat.add_comm 1]

theorem styles_after (calls : List BuilderCall) :
    (after calls).styles = (registered calls).mapIdx numbered := by
  rw [after, styles_foldl]
  simp [blank]

/-- The first style that has the id of the style after `n` others is that
style itself, unless its id is shared. -/
theorem find?_numbered {l : List (String × List Property)} {n : Nat} {p q : String × List Property}
    (hp : l[min n 254]? = some p) :
    (l.mapIdx numbered).find? (·.id == (numbered n q).id) = some (numbered (min n 254) p) := by
  obtain ⟨hlt, rfl⟩ := List.getElem?_eq_some_iff.mp hp
  rw [List.find?_eq_some_iff_getElem]
  refine ⟨?_, min n 254, by rwa [List.length_mapIdx], List.getElem_mapIdx .., ?_⟩
  · rw [beq_iff_eq, id_numbered_inj, Nat.min_assoc, Nat.min_self]
  · intro m hm
    rw [List.getElem_mapIdx, Bool.not_eq_true', beq_eq_false_iff_ne, Ne, id_numbered_inj]
    omega

/-- A call that registers a style answers its id. -/
theorem addStyle_eq (before : List BuilderCall) (p : String × List Property) :
    ((after before).addStyle p.1 p.2).1 = (numbered (registered before).length p).id := by
  have hlength : (after before).styles.length = (registered before).length := by
    rw [styles_after, List.length_mapIdx]
  rw [addStyle, hlength, numbered]

/-- Under the id there stands the style, if it is among the first 255, and
else the last of these. -/
theorem find?_addStyle {p : String × List Property}
    (hcalls : before ++ [.addStyle p.1 p.2] <+: calls) :
    (after calls).styles.find? (·.id == ((after before).addStyle p.1 p.2).1) =
      ((registered before ++ [p])[min (registered before).length 254]?).map
        (numbered (min (registered before).length 254)) := by
  obtain ⟨rest, rfl⟩ := hcalls
  have hregistered : registered (before ++ [.addStyle p.1 p.2] ++ rest) =
      registered before ++ [p] ++ registered rest := by
    simp [registered, BuilderCall.style?]
  have hlt : min (registered before).length 254 < (registered before ++ [p]).length := by
    rw [List.length_append, List.length_singleton]
    omega
  rw [addStyle_eq, styles_after, hregistered, List.getElem?_eq_getElem hlt, Option.map_some]
  apply find?_numbered
  rw [List.getElem?_append_left hlt, List.getElem?_eq_getElem hlt]

/-! ### The document -/

/-- Whatever is called before a document is made, what was answered holds
in it. An index that was answered for a string, not for want of room, is
that of this string and of no other, and the string has no other index; so
it is with paths. The first 255 styles are found under the ids answered for
them. From then on the answer is the id of the 255th. -/
theorem handles_resolve (calls : List BuilderCall) :
    let d := (after calls).build.1
    (∀ s i, Interned calls s i → d.string? i = some s) ∧
    (∀ s i s' i', Interned calls s i → Interned calls s' i' → (i = i' ↔ s = s')) ∧
    (∀ path i, Stored calls path i → d.resource? i = some path) ∧
    (∀ path i path' i', Stored calls path i → Stored calls path' i' → (i = i' ↔ path = path')) ∧
    (∀ before name properties, before ++ [.addStyle name properties] <+: calls →
      let id := ((after before).addStyle name properties).1
      let n := (registered before).length
      (n < 255 → id.toNat = n + 1 ∧ d.style? id = some { id, name, properties }) ∧
      (255 ≤ n → id = 255 ∧ d.style? id =
        (registered before)[254]?.map fun p => { id, name := p.1, properties := p.2 })) := by
  intro d
  refine ⟨?_, fun s i s' i' h h' => h.eq_iff h', ?_, fun p i p' i' h h' => h.eq_iff h', ?_⟩
  · intro s i h
    obtain ⟨n, hn, hs⟩ := h.stands
    show ("" :: (after calls).finalTables.strings)[i.toNat]? = some s
    rw [hn, List.getElem?_cons_succ, hs]
  · intro path i h
    exact h.stands
  · intro before name properties hcalls id n
    have hid : id.toNat = min (n + 1) 255 :=
      (congrArg UInt8.toNat (addStyle_eq before (name, properties))).trans (toNat_id_numbered n _)
    have hne : id ≠ 0 := by
      intro hzero
      rw [hzero, UInt8.toNat_zero] at hid
      omega
    have hlookup : d.style? id =
        ((registered before ++ [(name, properties)])[min n 254]?).map (numbered (min n 254)) := by
      rw [Document.style?, if_neg hne]
      exact find?_addStyle (p := (name, properties)) hcalls
    constructor
    · intro hn
      have hmin : min n 254 = n := by omega
      refine ⟨by omega, ?_⟩
      rw [hlookup, hmin, List.getElem?_concat_length, Option.map_some, numbered,
        ← UInt8.ofNat_toNat (x := id), hid]
    · intro hn
      have hmin : min n 254 = 254 := by omega
      have h255 : id = 255 := UInt8.toNat_inj.mp (hid.trans (by simp; omega))
      refine ⟨h255, ?_⟩
      rw [hlookup, hmin, List.getElem?_append_left (by omega), h255]
      rfl

/-- After 255 styles of one name comes one of another. Its id is that of the
one before it, which is the one found. -/
theorem last_id_is_shared :
    let before := List.replicate 255 (BuilderCall.addStyle "shared" [])
    let d := (after (before ++ [.addStyle "own" []])).build.1
    let id := ((after before).addStyle "own" []).1
    d.styles[255]? = some { id, name := "own", properties := [] } ∧
      d.style? id = some { id, name := "shared", properties := [] } ∧
      d.style? id ≠ some { id, name := "own", properties := [] } := by
  decide +kernel

end Builder

end SceneTree
