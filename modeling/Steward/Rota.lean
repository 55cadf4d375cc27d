/-!
# Rota — whose turn it is

Those who can run stand in a queue, first come first served.  In one turn an actor may be given
`allowance` things: items, permits, slots for items of its own, and word of what became of them.
One that has been given them all *steps aside*, whether or not there is more for it.  Those aside
are called back, the last one first, when nobody else can run, and otherwise once in
`callBackAfter` turns.

`size_next?` says that giving a turn takes somebody off the rota, so that a run goes on only as
long as actors wake each other or step aside.  `mem_next?` says that nobody else leaves it, so that
everybody has a turn in the end.
-/

namespace Steward

/-- The actors that can run, or will be able to. -/
structure Rota (α : Type) where
  /-- Those who can run, first come first served. -/
  queue : List α
  /-- Those who stepped aside, the last one first. -/
  aside : List α
  /-- How many turns were given since those aside were called back. -/
  given : Nat

namespace Rota

/-- How many things an actor may be given in one turn. -/
def allowance : Nat := 128

/-- After how many turns those aside are called back though others can run. -/
def callBackAfter : Nat := 61

variable {α : Type}

/-- A rota of actors that can all run, in this order. -/
def ofList (l : List α) : Rota α := ⟨l, [], 0⟩

/-- Nobody can run. -/
def empty : Rota α := ofList []

/-- How many entries there are. -/
def size (r : Rota α) : Nat := r.queue.length + r.aside.length

variable [DecidableEq α]

/-- An actor comes to the end of the queue, unless it is in it. -/
def wake (r : Rota α) (a : α) : Rota α :=
  if a ∈ r.queue then r else { r with queue := r.queue ++ [a] }

/-- Actors come to the end of the queue in order. -/
def wakeAll (r : Rota α) (as : List α) : Rota α := as.foldl wake r

/-- An actor steps aside. -/
def stepAside (r : Rota α) (a : α) : Rota α :=
  if r.aside.head? = some a then r else { r with aside := a :: r.aside }

/-- Those aside come to the end of the queue. -/
def callBack (r : Rota α) : Rota α := { r.wakeAll r.aside with aside := [], given := 0 }

/-- Those aside are called back now. -/
def isDue (r : Rota α) : Bool := r.queue.isEmpty || callBackAfter ≤ r.given

/-- Whose turn it is, and the rota without it; `none` if there is nobody. -/
def next? (r : Rota α) : Option (α × Rota α) :=
  let r := if r.isDue then r.callBack else r
  match r.queue with
  | [] => none
  | a :: rest => some (a, { r with queue := rest, given := r.given + 1 })

/-! ## Counting entries -/

theorem size_wake (r : Rota α) (a : α) : (r.wake a).size ≤ r.size + 1 := by
  unfold wake
  split
  · omega
  · simp [size]
    omega

theorem aside_wake (r : Rota α) (a : α) : (r.wake a).aside = r.aside := by
  unfold wake
  split <;> rfl

@[simp] theorem aside_wakeAll (r : Rota α) (as : List α) : (r.wakeAll as).aside = r.aside := by
  induction as generalizing r with
  | nil => rfl
  | cons a as ih => exact (ih (r.wake a)).trans (aside_wake r a)

theorem size_wakeAll (r : Rota α) (as : List α) : (r.wakeAll as).size ≤ r.size + as.length := by
  induction as generalizing r with
  | nil => exact Nat.le_refl _
  | cons a as ih =>
    have h₁ : ((r.wake a).wakeAll as).size ≤ (r.wake a).size + as.length := ih (r.wake a)
    have h₂ := size_wake r a
    simp only [List.length_cons]
    exact Nat.le_trans h₁ (by omega)

/-- Calling back makes no new entries. -/
theorem size_callBack (r : Rota α) : r.callBack.size ≤ r.size := by
  have h := size_wakeAll r r.aside
  simp only [size, aside_wakeAll] at h
  simp only [callBack, size, List.length_nil]
  omega

/-- Giving a turn takes an entry off the rota. -/
theorem size_next? {r : Rota α} {t : α × Rota α} (h : r.next? = some t) : t.2.size < r.size := by
  have hle : (if r.isDue then r.callBack else r).size ≤ r.size := by
    split
    · exact size_callBack r
    · exact Nat.le_refl _
  unfold next? at h
  dsimp only at h
  split at h
  · simp at h
  · rename_i a rest hq
    obtain rfl := Option.some.inj h
    simp only [size, hq, List.length_cons] at hle ⊢
    omega

/-! ## Who is on the rota -/

theorem mem_queue_wake {r : Rota α} {a b : α} : b ∈ (r.wake a).queue ↔ b = a ∨ b ∈ r.queue := by
  unfold wake
  split
  · rename_i hqueued
    exact ⟨.inr, fun h => h.elim (fun hb => hb ▸ hqueued) id⟩
  · simp [or_comm]

theorem mem_queue_wakeAll {r : Rota α} {as : List α} {b : α} :
    b ∈ (r.wakeAll as).queue ↔ b ∈ as ∨ b ∈ r.queue := by
  induction as generalizing r with
  | nil => simp [wakeAll]
  | cons a as ih =>
    refine (ih (r := r.wake a)).trans ?_
    rw [mem_queue_wake, List.mem_cons, or_left_comm, or_assoc]

instance : Membership α (Rota α) where
  mem r a := a ∈ r.queue ∨ a ∈ r.aside

omit [DecidableEq α] in
theorem mem_def {r : Rota α} {a : α} : a ∈ r ↔ a ∈ r.queue ∨ a ∈ r.aside := Iff.rfl

theorem mem_wakeAll {r : Rota α} {as : List α} {b : α} : b ∈ r.wakeAll as ↔ b ∈ as ∨ b ∈ r := by
  rw [mem_def, mem_def, mem_queue_wakeAll, aside_wakeAll, or_assoc]

theorem mem_wake {r : Rota α} {a b : α} : b ∈ r.wake a ↔ b = a ∨ b ∈ r := by
  rw [mem_def, mem_def, mem_queue_wake, aside_wake, or_assoc]

theorem mem_stepAside {r : Rota α} {a b : α} : b ∈ r.stepAside a ↔ b = a ∨ b ∈ r := by
  unfold stepAside
  split
  · rename_i hhead
    exact ⟨.inr, fun h => h.elim (fun hb => .inr (hb ▸ List.mem_of_mem_head? hhead)) id⟩
  · simp [mem_def, or_left_comm]

/-- To call back those aside leaves nobody out. -/
theorem mem_callBack {r : Rota α} {b : α} : b ∈ r.callBack ↔ b ∈ r := by
  change b ∈ (r.wakeAll r.aside).queue ∨ b ∈ [] ↔ _
  rw [mem_queue_wakeAll, mem_def]
  simp [or_comm]

/-- **Nobody leaves the rota but whose turn it is.** -/
theorem mem_next? {r : Rota α} {t : α × Rota α} (h : r.next? = some t) {b : α} (hb : b ∈ r) :
    b = t.1 ∨ b ∈ t.2 := by
  have hb : b ∈ if r.isDue then r.callBack else r := by
    split
    · exact mem_callBack.mpr hb
    · exact hb
  unfold next? at h
  dsimp only at h
  split at h
  · cases h
  · rename_i a rest hq
    obtain rfl := Option.some.inj h
    rw [mem_def, hq, List.mem_cons, or_assoc] at hb
    exact hb

/-- Nobody's turn it is only if nobody is on the rota. -/
theorem notMem_of_next? {r : Rota α} (h : r.next? = none) (b : α) : b ∉ r := by
  unfold next? at h
  dsimp only at h
  split at h
  · rename_i hq
    split at hq
    · rw [← mem_callBack, mem_def, hq]
      simp [callBack]
    · rename_i hdue
      exact absurd (by simp [isDue, hq]) hdue
  · cases h

end Rota

end Steward
