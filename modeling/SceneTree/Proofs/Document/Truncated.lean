import SceneTree.Proofs.Document.Canonical

/-!
# Records cut short

A record that fails to be read was cut short, and the fault says exactly
where and by how much. The field that is named is the one that lacks
bytes: with fewer bytes more than it lacks it is still the one, and it
lacks so many the less; with as many or more the reader gets past it. A
record that was read is not changed by what follows it, and no less than
its bytes can be read as a record (`Record.read_exact`).

`Reader.Streams` is that contract for any reader: on any bytes it either
takes some of them, in the sense of `Reader.Takes`, or lacks some, in the
sense of `Reader.Lacks`. A field is read so, and a chain of readers that
are so is so again (`Reader.Streams.bind`), whatever sizes and counts the
later ones depend on.
-/

namespace SceneTree

namespace Reader

variable {α β : Type} {r : Reader α} {given more rest taken : List UInt8} {a : α}
  {done missing done' missing' n : Nat}

/-! ## What a reader lacks -/

/-- On just these bytes the reader stops behind the first `done` of them,
at a field that lacks `missing` bytes. -/
structure Lacks (r : Reader α) (given : List UInt8) (done missing : Nat) : Prop where
  stops : ∀ offset, r ⟨offset, given⟩ =
    .error ⟨offset + done, missing⟩ ⟨offset + done, given.drop done⟩
  done_le : done ≤ given.length
  missing_pos : 1 ≤ missing

theorem Lacks.unique (h : Lacks r given done missing) (h' : Lacks r given done' missing') :
    done = done' ∧ missing = missing' := by
  have hsame := (h.stops 0).symm.trans (h'.stops 0)
  simp only [EStateM.Result.error.injEq, ShortRead.mk.injEq, Cursor.mk.injEq] at hsame
  omega

/-- What a reader takes is enough for it. -/
theorem Takes.not_lacks (h : Takes r taken a) : ¬ Lacks r (taken ++ rest) done missing := by
  intro hlacks
  have hsame := (h 0 rest).symm.trans (hlacks.stops 0)
  cases hsame

/-- Given these bytes, the reader gets past the first `n` of them, be it
that it takes them or that it lacks some only later. -/
def Passes (r : Reader α) (given : List UInt8) (n : Nat) : Prop :=
  (∃ taken rest a, given = taken ++ rest ∧ n ≤ taken.length ∧ Takes r taken a) ∨
    ∃ done missing, n ≤ done ∧ Lacks r given done missing

theorem Passes.mono {m : Nat} (h : Passes r given n) (hmn : m ≤ n) : Passes r given m := by
  rcases h with ⟨taken, rest, a, heq, hn, htakes⟩ | ⟨done, missing, hn, hlacks⟩
  · exact .inl ⟨taken, rest, a, heq, Nat.le_trans hmn hn, htakes⟩
  · exact .inr ⟨done, missing, Nat.le_trans hmn hn, hlacks⟩

/-- The contract of a reader that waits for its bytes. -/
structure Streams (r : Reader α) : Prop where
  /-- It takes some of the bytes or lacks some. -/
  ends : ∀ given, Passes r given 0
  /-- With too few more it stops at the same field. -/
  waits : ∀ {given done missing}, Lacks r given done missing → ∀ more, more.length < missing →
    Lacks r (given ++ more) done (missing - more.length)
  /-- With enough of them it gets past that field. -/
  resumes : ∀ {given done missing}, Lacks r given done missing → ∀ more, missing ≤ more.length →
    Passes r (given ++ more) (given.length + missing)

/-! ## Chains -/

theorem Lacks.bind {next : α → Reader β} (h : Lacks r given done missing) :
    Lacks (r >>= next) given done missing where
  stops offset := by
    change EStateM.bind r next _ = _
    rw [EStateM.bind, h.stops]
  done_le := h.done_le
  missing_pos := h.missing_pos

theorem Takes.bind_lacks {next : α → Reader β} (h : Takes r taken a)
    (h' : Lacks (next a) rest done missing) :
    Lacks (r >>= next) (taken ++ rest) (taken.length + done) missing where
  stops offset := by
    change EStateM.bind r next _ = _
    rw [EStateM.bind, h]
    dsimp only
    rw [h'.stops, List.drop_length_add_append, Nat.add_assoc]
  done_le := by
    have hle := h'.done_le
    rw [List.length_append]
    omega
  missing_pos := h'.missing_pos

namespace Streams

theorem pure (a : α) : Streams (pure a) where
  ends given := .inl ⟨[], given, a, rfl, Nat.zero_le _, .pure a⟩
  waits h := absurd h (Takes.not_lacks (.pure a))
  resumes h := absurd h (Takes.not_lacks (.pure a))

section Bind

variable {next : α → Reader β} (h : Streams r) (h' : ∀ a, Streams (next a))

include h'

/-- Where the first reader gets past some bytes, so does the chain. -/
theorem passes_bind (hr : Passes r given n) : Passes (r >>= next) given n := by
  rcases hr with ⟨taken, rest, a, rfl, hn, htakes⟩ | ⟨done, missing, hn, hlacks⟩
  · rcases (h' a).ends rest with ⟨taken', rest', b, rfl, -, htakes'⟩ | ⟨done, missing, -, hlacks⟩
    · refine .inl ⟨taken ++ taken', rest', b, (List.append_assoc ..).symm, ?_,
        htakes.bind htakes'⟩
      rw [List.length_append]
      omega
    · exact .inr ⟨_, _, by omega, htakes.bind_lacks hlacks⟩
  · exact .inr ⟨done, missing, hn, hlacks.bind⟩

include h

/-- Whichever reader of the chain lacks bytes has a field that does. -/
theorem lacks_bind (hlacks : Lacks (r >>= next) given done missing) :
    Lacks r given done missing ∨ ∃ taken rest a done', given = taken ++ rest ∧
      done = taken.length + done' ∧ Takes r taken a ∧ Lacks (next a) rest done' missing := by
  rcases h.ends given with ⟨taken, rest, a, rfl, -, htakes⟩ | ⟨done', missing', -, hfirst⟩
  · rcases (h' a).ends rest with ⟨taken', rest', b, rfl, -, htakes'⟩ | ⟨done', missing', -, hnext⟩
    · rw [← List.append_assoc] at hlacks
      exact absurd hlacks (htakes.bind htakes').not_lacks
    · obtain ⟨rfl, rfl⟩ := hlacks.unique (htakes.bind_lacks hnext)
      exact .inr ⟨taken, rest, a, done', rfl, rfl, htakes, hnext⟩
  · obtain ⟨rfl, rfl⟩ := hlacks.unique hfirst.bind
    exact .inl hfirst

theorem bind : Streams (r >>= next) where
  ends given := passes_bind h' (h.ends given)
  waits hlacks more hmore := by
    rcases lacks_bind h h' hlacks with hfirst | ⟨taken, rest, a, done', rfl, rfl, htakes, hnext⟩
    · exact (h.waits hfirst more hmore).bind
    · rw [List.append_assoc]
      exact htakes.bind_lacks ((h' a).waits hnext more hmore)
  resumes hlacks more hmore := by
    rcases lacks_bind h h' hlacks with hfirst | ⟨taken, rest, a, done', rfl, rfl, htakes, hnext⟩
    · exact passes_bind h' (h.resumes hfirst more hmore)
    · rw [List.append_assoc, List.length_append]
      rcases (h' a).resumes hnext more hmore with
        ⟨taken', rest', b, heq, hle, htakes'⟩ | ⟨done, missing, hle, hlacks'⟩
      · refine .inl ⟨taken ++ taken', rest', b, ?_, ?_, htakes.bind htakes'⟩
        · rw [heq, List.append_assoc]
        · rw [List.length_append]
          omega
      · exact .inr ⟨_, _, by omega, htakes.bind_lacks hlacks'⟩

end Bind

/-! ## Fields and tables -/

theorem lacks_bytes (hlt : given.length < n) : Lacks (bytes n) given 0 (n - given.length) where
  stops offset := by
    rw [Reader.bytes, Cursor.remaining, if_pos hlt]
    rfl
  done_le := Nat.zero_le _
  missing_pos := by omega

theorem takes_bytes (hle : n ≤ given.length) : Takes (bytes n) (given.take n) (given.take n) := by
  have htakes := Takes.bytes (given.take n)
  rwa [List.length_take_of_le hle] at htakes

/-- A field of `n` bytes gets past them, if there are so many. -/
theorem passes_bytes (hle : n ≤ given.length) : Passes (bytes n) given n :=
  .inl ⟨given.take n, given.drop n, given.take n, (List.take_append_drop n given).symm,
    Nat.le_of_eq (List.length_take_of_le hle).symm, takes_bytes hle⟩

theorem lacks_bytes_iff : Lacks (bytes n) given done missing ↔
    given.length < n ∧ done = 0 ∧ missing = n - given.length := by
  constructor
  · intro hlacks
    by_cases hlt : given.length < n
    · exact ⟨hlt, hlacks.unique (lacks_bytes hlt)⟩
    · rw [← List.take_append_drop n given] at hlacks
      exact absurd hlacks (takes_bytes (Nat.not_lt.mp hlt)).not_lacks
  · rintro ⟨hlt, rfl, rfl⟩
    exact lacks_bytes hlt

theorem bytes (n : Nat) : Streams (bytes n) where
  ends given := by
    by_cases hlt : given.length < n
    · exact .inr ⟨_, _, Nat.zero_le _, lacks_bytes hlt⟩
    · exact (passes_bytes (Nat.not_lt.mp hlt)).mono (Nat.zero_le n)
  waits hlacks more hmore := by
    obtain ⟨hlt, rfl, rfl⟩ := lacks_bytes_iff.mp hlacks
    rw [lacks_bytes_iff, List.length_append]
    omega
  resumes hlacks more hmore := by
    obtain ⟨hlt, rfl, rfl⟩ := lacks_bytes_iff.mp hlacks
    rw [Nat.add_sub_cancel' (Nat.le_of_lt hlt)]
    refine passes_bytes ?_
    rw [List.length_append]
    omega

theorem byte : Streams byte := (bytes 1).bind fun _ => .pure _

theorem word : Streams word := (bytes 2).bind fun bs => by
  split <;> exact .pure _

theorem times {item : Reader α} (h : Streams item) (n : Nat) : Streams (times n item) := by
  induction n with
  | zero => exact .pure []
  | succ n ih => exact h.bind fun a => ih.bind fun as => .pure (a :: as)

theorem value : Streams value := byte.bind fun _ => byte.bind fun size =>
  (bytes size.toNat).bind fun _ => .pure _

theorem property : Streams property := byte.bind fun _ => value.bind fun _ => .pure _

theorem custom : Streams custom := byte.bind fun _ => value.bind fun _ => .pure _

theorem trigger : Streams trigger := byte.bind fun _ => byte.bind fun _ => .pure _

theorem header : Streams header := byte.bind fun _ => byte.bind fun _ => word.bind fun _ =>
  word.bind fun _ => word.bind fun _ => word.bind fun _ => byte.bind fun _ => byte.bind fun _ =>
    .pure _

/-- The counts are read first, so each table is as long as its count says
before any byte of it is looked at. -/
theorem record : Streams record := header.bind fun _ => byte.bind fun propertyCount =>
  byte.bind fun childCount => byte.bind fun triggerCount => byte.bind fun customCount =>
    (property.times propertyCount.toNat).bind fun _ => (custom.times customCount.toNat).bind
      fun _ => (trigger.times triggerCount.toNat).bind fun _ =>
        (word.times childCount.toNat).bind fun _ => .pure _

/-! ## Runs -/

section Runs

variable {offset : Nat} {c : Cursor} {e : ShortRead} (h : Streams r)

include h

/-- What was taken stood between where the reader began and where it
ended. -/
theorem eq_ok (hr : r ⟨offset, given⟩ = .ok a c) :
    ∃ taken, given = taken ++ c.rest ∧ c.offset = offset + taken.length ∧ Takes r taken a := by
  rcases h.ends given with ⟨taken, rest, a', rfl, -, htakes⟩ | ⟨done, missing, -, hlacks⟩
  · cases (htakes offset rest).symm.trans hr
    exact ⟨taken, rfl, rfl, htakes⟩
  · cases (hlacks.stops offset).symm.trans hr

theorem eq_error (hr : r ⟨offset, given⟩ = .error e c) :
    ∃ done missing, Lacks r given done missing ∧ e = ⟨offset + done, missing⟩ ∧
      c = ⟨offset + done, given.drop done⟩ := by
  rcases h.ends given with ⟨taken, rest, a', rfl, -, htakes⟩ | ⟨done, missing, -, hlacks⟩
  · cases (htakes offset rest).symm.trans hr
  · cases (hlacks.stops offset).symm.trans hr
    exact ⟨done, missing, hlacks, rfl, rfl⟩

/-- With enough bytes more it is a later field that is cut short, if any. -/
theorem past_of_error (hlacks : Lacks r given done missing) (hmore : missing ≤ more.length)
    (hr : r ⟨offset, given ++ more⟩ = .error e c) : offset + given.length + missing ≤ e.offset := by
  obtain ⟨done', missing', hlacks', rfl, -⟩ := h.eq_error hr
  rcases h.resumes hlacks more hmore with
    ⟨taken, rest, a, heq, -, htakes⟩ | ⟨done, missing, hle, hlacks⟩
  · rw [heq] at hlacks'
    exact absurd hlacks' htakes.not_lacks
  · obtain ⟨rfl, -⟩ := hlacks.unique hlacks'
    dsimp only
    omega

/-- Less than what it takes is not enough for a reader. -/
theorem lacks_of_prefix (htakes : Takes r taken a) {short : List UInt8}
    (hshort : short <+: taken) (hne : short ≠ taken) :
    ∃ done missing, Lacks r short done missing := by
  rcases h.ends short with ⟨taken', rest, a', rfl, -, htakes'⟩ | ⟨done, missing, -, hlacks⟩
  · obtain ⟨more, rfl⟩ := hshort
    have hread := htakes 0 []
    rw [List.append_nil, List.append_assoc, htakes' 0 (rest ++ more)] at hread
    obtain ⟨-, hrest⟩ := Cursor.mk.inj (EStateM.Result.ok.inj hread).2
    rw [(List.append_eq_nil_iff.mp hrest).2, List.append_nil] at hne
    exact absurd rfl hne
  · exact ⟨done, missing, hlacks⟩

end Runs

end Streams

end Reader

/-! ## Reading records -/

theorem Cursor.startingAt_append {bytes : List UInt8} {offset : Nat} (h : offset ≤ bytes.length)
    (more : List UInt8) :
    startingAt (bytes ++ more) offset = ⟨offset, bytes.drop offset ++ more⟩ := by
  rw [startingAt, List.drop_append_of_le_length h]

theorem Cursor.startingAt_length (pre rest : List UInt8) :
    startingAt (pre ++ rest) pre.length = ⟨pre.length, rest⟩ := by
  rw [startingAt, List.drop_left]

namespace Record

/-- Reading fails exactly where the bytes end. Where no record can be read,
the fault names a field from `start` on that lacks a byte at least, and the
cursor stands there. With fewer bytes more than it lacks reading fails at
the same place and lacks so many the less; with as many or more it succeeds
or fails behind that field. Where a record can be read, any less than its
bytes is not enough, wherever they stand, and whatever follows them leaves
it the same record. -/
theorem read_exact {bytes : List UInt8} {start : Nat} (hstart : start ≤ bytes.length) :
    (∀ e stopped, Reader.record (.startingAt bytes start) = .error e stopped →
      start ≤ e.offset ∧ e.offset ≤ bytes.length ∧ 1 ≤ e.missing ∧
      stopped = .startingAt bytes e.offset ∧ ∀ more,
        (more.length < e.missing →
          Reader.record (.startingAt (bytes ++ more) start) =
            .error ⟨e.offset, e.missing - more.length⟩ (.startingAt (bytes ++ more) e.offset)) ∧
        (e.missing ≤ more.length → ∀ e' stopped',
          Reader.record (.startingAt (bytes ++ more) start) = .error e' stopped' →
            bytes.length + e.missing ≤ e'.offset)) ∧
    ∀ r after, Reader.record (.startingAt bytes start) = .ok r after →
      ∃ taken, bytes.drop start = taken ++ after.rest ∧ after.offset = start + taken.length ∧
        (∀ pre short, short <+: taken → short ≠ taken →
          ∃ e stopped, Reader.record (.startingAt (pre ++ short) pre.length) = .error e stopped) ∧
        ∀ pre suf, Reader.record (.startingAt (pre ++ taken ++ suf) pre.length) =
          .ok r (.startingAt (pre ++ taken ++ suf) (pre.length + taken.length)) := by
  have hstreams := Reader.Streams.record
  have hlength : (bytes.drop start).length = bytes.length - start := List.length_drop
  constructor
  · intro e stopped hread
    obtain ⟨done, missing, hlacks, rfl, rfl⟩ := hstreams.eq_error hread
    have hdone := hlacks.done_le
    have hstopped : start + done ≤ bytes.length := by omega
    refine ⟨Nat.le_add_right start done, hstopped, hlacks.missing_pos, ?_, fun more => ?_⟩
    · rw [Cursor.startingAt, List.drop_drop]
    rw [Cursor.startingAt_append hstart]
    constructor
    · intro hmore
      rw [(hstreams.waits hlacks more hmore).stops, Cursor.startingAt_append hstopped,
        List.drop_append_of_le_length hdone, List.drop_drop]
    · intro hmore e' stopped' hread'
      have hpast := hstreams.past_of_error hlacks hmore hread'
      dsimp only
      omega
  · intro r after hread
    obtain ⟨taken, hrest, hoffset, htakes⟩ := hstreams.eq_ok hread
    refine ⟨taken, hrest, hoffset, fun pre short hshort hne => ?_, fun pre suf => ?_⟩
    · obtain ⟨done, missing, hlacks⟩ := hstreams.lacks_of_prefix htakes hshort hne
      rw [Cursor.startingAt_length]
      exact ⟨_, _, hlacks.stops pre.length⟩
    · rw [← List.length_append, Cursor.startingAt_length, List.append_assoc,
        Cursor.startingAt_length, htakes, List.length_append]

/-- The padded container, whole and without its last two bytes. The field
that is cut short is the payload of its custom. -/
theorem padded_read_exact :
    let cut := padded.take 26
    1 ≤ cut.length ∧ 1 ≤ padded.length ∧
      Reader.record (.startingAt cut 1) = .error ⟨24, 2⟩ (.startingAt cut 24) ∧
      (∀ b, Reader.record (.startingAt (cut ++ [b]) 1) =
        .error ⟨24, 1⟩ (.startingAt (cut ++ [b]) 24)) ∧
      ∃ r after, Reader.record (.startingAt padded 1) = .ok r after ∧
        ∀ pre short, short <+: padded.drop 1 → short ≠ padded.drop 1 → ∃ e stopped,
          Reader.record (.startingAt (pre ++ short) pre.length) = .error e stopped := by
  intro cut
  have hcut : 1 ≤ cut.length := by decide
  have hwhole : 1 ≤ padded.length := by decide
  have hfails : Reader.record (.startingAt cut 1) = .error ⟨24, 2⟩ (.startingAt cut 24) := rfl
  obtain ⟨r, after, hread, hend⟩ : ∃ r after,
      Reader.record (.startingAt padded 1) = .ok r after ∧ after.rest = [] := ⟨_, _, rfl, rfl⟩
  obtain ⟨-, -, -, -, hlater⟩ := (read_exact hcut).1 _ _ hfails
  obtain ⟨taken, htaken, -, hshort, -⟩ := (read_exact hwhole).2 r after hread
  rw [hend, List.append_nil] at htaken
  exact ⟨hcut, hwhole, hfails, fun b => (hlater [b]).1 (by simp), r, after, hread,
    htaken ▸ hshort⟩

end Record

end SceneTree
