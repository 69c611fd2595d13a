import Mathlib.Data.List.Nodup

/-!
# Singly linked lists in a heap

Nodes live at addresses of a heap and point to the node behind them through `next`. `Chain m h l` says
that, in the heap `m`, the pointer `h` leads through the nodes of `l` to the end, where `l` has the
address and the payload of each node. A write at an address that is not in a chain keeps it
(`Chain.frame`), and linking a node behind the last one appends it (`Chain.insertAfter_last`). `forEach`
is the loop over a list and `find` the loop that stops at the first node of a kind; on a chain they are
the fold and the search over `l` (`Chain.forEach`, `Chain.find`).
-/

namespace Slist

/-- Addresses of nodes. -/
abbrev Addr := Nat

/-- A node with payload `val`. -/
structure Node (β : Type) where
  /-- The payload. -/
  val : β
  /-- The node behind this one. -/
  next : Option Addr
deriving DecidableEq, Repr

/-- A heap: `none` at the addresses that are not allocated. -/
abbrev Heap (β : Type) := Addr → Option (Node β)

variable {β σ : Type}

/-- Change the `next` pointer of a node. -/
def Node.withNext (n : Option Addr) (c : Node β) : Node β := { c with next := n }

/-- Change the payload of a node. -/
def Node.mapVal (f : β → β) (c : Node β) : Node β := { c with val := f c.val }

/-- Apply `f` to the node at `a`: `none` is the access of an address that is not allocated. -/
def Heap.store (m : Heap β) (a : Addr) (f : Node β → Node β) : Option (Heap β) :=
  (m a).map fun c => Function.update m a (some (f c))

/-- Insert the node at `a` in front of the list behind the pointer `h`. -/
def Heap.insertHead (m : Heap β) (h : Option Addr) (a : Addr) : Option (Heap β) :=
  m.store a (Node.withNext h)

/-- Insert the node at `a` behind the node at `p`. -/
def Heap.insertAfter (m : Heap β) (p a : Addr) : Option (Heap β) := do
  let c ← m p
  let m ← m.store a (Node.withNext c.next)
  m.store p (Node.withNext (some a))

/-- Go through the list from the pointer `h` on, with the local variables `s`. -/
def Heap.forEach (m : Heap β) (body : σ → Addr → β → σ) : Nat → Option Addr → σ → Option σ
  | _, none, s => some s
  | 0, some _, _ => none
  | fuel + 1, some a, s => do
    let c ← m a
    forEach m body fuel c.next (body s a c.val)

/-- Go through the list from the pointer `h` on up to the first node whose payload satisfies `q`. -/
def Heap.find (m : Heap β) (q : β → Bool) : Nat → Option Addr → Option (Option Addr)
  | _, none => some none
  | 0, some _ => none
  | fuel + 1, some a => do
    let c ← m a
    if q c.val then some (some a) else find m q fuel c.next

/-- The pointer `h` leads through the nodes of `l`, each with its payload, to the end. -/
def Chain (m : Heap β) : Option Addr → List (Addr × β) → Prop
  | h, [] => h = none
  | h, p :: l => h = some p.1 ∧ ∃ n, m p.1 = some ⟨p.2, n⟩ ∧ Chain m n l

/-! ## Writes -/

theorem Heap.store_eq_some {m : Heap β} {a : Addr} {c : Node β} (h : m a = some c)
    (f : Node β → Node β) : m.store a f = some (Function.update m a (some (f c))) := by
  simp [Heap.store, h]

/-- A chain is kept by a heap that has the same nodes at its addresses. -/
theorem Chain.frame {m m' : Heap β} {h : Option Addr} {l : List (Addr × β)} (hc : Chain m h l)
    (hm : ∀ a ∈ l.map Prod.fst, m' a = m a) : Chain m' h l := by
  induction l generalizing h with
  | nil => exact hc
  | cons p l ih =>
    obtain ⟨hh, n, hp, hl⟩ := hc
    refine ⟨hh, n, ?_, ih hl fun a ha => hm a (List.mem_cons_of_mem _ ha)⟩
    rw [hm p.1 (List.mem_cons_self ..), hp]

/-- A write at an address that is not in a chain keeps it. -/
theorem Chain.update {m : Heap β} {h : Option Addr} {l : List (Addr × β)} (hc : Chain m h l) {a : Addr}
    (ha : a ∉ l.map Prod.fst) (c : Option (Node β)) : Chain (Function.update m a c) h l := by
  refine hc.frame fun b hb => Function.update_of_ne ?_ _ _
  intro hba
  exact ha (hba ▸ hb)

/-- The nodes of a chain are allocated. -/
theorem Chain.mem {m : Heap β} {h : Option Addr} {l : List (Addr × β)} (hc : Chain m h l)
    {p : Addr × β} (hp : p ∈ l) : ∃ n, m p.1 = some ⟨p.2, n⟩ := by
  induction l generalizing h with
  | nil => exact absurd hp (by simp)
  | cons q l ih =>
    obtain ⟨-, n, hq, hl⟩ := hc
    rcases List.mem_cons.1 hp with hpq | hp
    · subst hpq
      exact ⟨n, hq⟩
    · exact ih hl hp

/-- A chain with the node `p` alone behind it: the links of the nodes before `p` are left as they are
when a new node `a` becomes the one behind `p`. -/
theorem Chain.append_last {m m' : Heap β} {h : Option Addr} {l : List (Addr × β)} {p q : Addr × β}
    (hc : Chain m h (l ++ [p])) (hm : ∀ b ∈ l.map Prod.fst, m' b = m b)
    (hp : m' p.1 = some ⟨p.2, some q.1⟩) (hq : m' q.1 = some ⟨q.2, none⟩) :
    Chain m' h (l ++ [p, q]) := by
  induction l generalizing h with
  | nil =>
    obtain ⟨hh, -⟩ := hc
    exact ⟨hh, some q.1, hp, rfl, none, hq, rfl⟩
  | cons b l ih =>
    obtain ⟨hh, n, hb, hl⟩ := hc
    refine ⟨hh, n, ?_, ih hl fun a ha => hm a (List.mem_cons_of_mem _ ha)⟩
    rw [hm b.1 (List.mem_cons_self ..), hb]

/-- The last node of a chain points to nothing. -/
theorem Chain.last {m : Heap β} {h : Option Addr} {l : List (Addr × β)} {p : Addr × β}
    (hc : Chain m h (l ++ [p])) : m p.1 = some ⟨p.2, none⟩ := by
  induction l generalizing h with
  | nil =>
    obtain ⟨-, n, hp, hn⟩ := hc
    rw [hp, show n = none from hn]
  | cons b l ih =>
    obtain ⟨-, n, -, hl⟩ := hc
    exact ih hl

/-- Insertion behind the last node of a chain appends the node. -/
theorem Chain.insertAfter_last {m : Heap β} {h : Option Addr} {l : List (Addr × β)} {p : Addr × β}
    {a : Addr} {c : Node β} (hc : Chain m h (l ++ [p])) (hnodup : ((l ++ [p]).map Prod.fst).Nodup)
    (ha : a ∉ (l ++ [p]).map Prod.fst) (hac : m a = some c) :
    ∃ m', m.insertAfter p.1 a = some m' ∧ Chain m' h (l ++ [p] ++ [(a, c.val)]) ∧
      ∀ b, b ≠ a → b ∉ (l ++ [p]).map Prod.fst → m' b = m b := by
  have hpa : p.1 ≠ a := fun hpa => ha (by simp [← hpa])
  have hlp : ∀ b ∈ l.map Prod.fst, b ≠ p.1 := by
    intro b hb hbp
    rw [List.map_append] at hnodup
    exact List.disjoint_of_nodup_append hnodup hb (by simp [hbp])
  have hla : ∀ b ∈ l.map Prod.fst, b ≠ a := by
    intro b hb hba
    rw [List.map_append] at ha
    exact ha (List.mem_append_left _ (hba ▸ hb))
  have hlast := hc.last
  have hp' : Function.update m a (some (Node.withNext none c)) p.1 = some ⟨p.2, none⟩ := by
    rw [Function.update_of_ne hpa, hlast]
  refine ⟨Function.update (Function.update m a (some (Node.withNext none c))) p.1
    (some ⟨p.2, some a⟩), ?_, ?_, ?_⟩
  · simp only [Heap.insertAfter, hlast, Option.bind_eq_bind, Option.bind_some,
      Heap.store_eq_some hac, Heap.store_eq_some hp']
    rfl
  · rw [List.append_assoc]
    refine hc.append_last (fun b hb => ?_) (Function.update_self ..) ?_
    · rw [Function.update_of_ne (hlp b hb), Function.update_of_ne (hla b hb)]
    · rw [Function.update_of_ne (Ne.symm hpa), Function.update_self]
      rfl
  · intro b hba hbl
    have hbp : b ≠ p.1 := fun hbp => hbl (by simp [hbp])
    rw [Function.update_of_ne hbp, Function.update_of_ne hba]

/-- Insertion in front of a chain. -/
theorem Chain.insertHead {m : Heap β} {h : Option Addr} {l : List (Addr × β)} {a : Addr} {c : Node β}
    (hc : Chain m h l) (ha : a ∉ l.map Prod.fst) (hac : m a = some c) :
    ∃ m', m.insertHead h a = some m' ∧ Chain m' (some a) ((a, c.val) :: l) ∧
      ∀ b, b ≠ a → m' b = m b :=
  ⟨_, Heap.store_eq_some hac _, ⟨rfl, h, Function.update_self .., hc.update ha _⟩,
    fun _ hb => Function.update_of_ne hb _ _⟩

/-- A change of the payload of the last node. -/
theorem Chain.store_last {m : Heap β} {h : Option Addr} {l : List (Addr × β)} {a : Addr} {v : β}
    (hc : Chain m h (l ++ [(a, v)])) (ha : a ∉ l.map Prod.fst) (f : β → β) :
    ∃ m', m.store a (Node.mapVal f) = some m' ∧ Chain m' h (l ++ [(a, f v)]) ∧
      ∀ b, b ≠ a → m' b = m b := by
  refine ⟨_, Heap.store_eq_some hc.last _, ?_, fun b hb => Function.update_of_ne hb _ _⟩
  induction l generalizing h with
  | nil =>
    obtain ⟨hh, -⟩ := hc
    exact ⟨hh, none, Function.update_self .., rfl⟩
  | cons b l ih =>
    obtain ⟨hh, n, hb, hl⟩ := hc
    have hba : b.1 ≠ a := fun hba => ha (by simp [hba])
    refine ⟨hh, n, ?_, ih hl fun hal => ha (List.mem_cons_of_mem _ hal)⟩
    rw [Function.update_of_ne hba, hb]

/-! ## Loops -/

/-- The loop over a chain is the fold over its nodes. -/
theorem Chain.forEach {m : Heap β} {h : Option Addr} {l : List (Addr × β)} (hc : Chain m h l)
    (body : σ → Addr → β → σ) {fuel : Nat} (hfuel : l.length ≤ fuel) (s : σ) :
    m.forEach body fuel h s = some (l.foldl (fun s p => body s p.1 p.2) s) := by
  induction l generalizing h fuel s with
  | nil =>
    have hh : h = none := hc
    subst hh
    cases fuel <;> rfl
  | cons p l ih =>
    obtain ⟨hh, n, hp, hl⟩ := hc
    subst hh
    cases fuel with
    | zero => simp at hfuel
    | succ fuel =>
      simp only [Heap.forEach, hp, Option.bind_eq_bind, Option.bind_some, List.foldl_cons]
      exact ih hl (by simpa using hfuel) _

/-- The search along a chain finds its first node of the kind. -/
theorem Chain.find {m : Heap β} {h : Option Addr} {l : List (Addr × β)} (hc : Chain m h l)
    (q : β → Bool) {fuel : Nat} (hfuel : l.length ≤ fuel) :
    m.find q fuel h = some ((l.find? fun p => q p.2).map Prod.fst) := by
  induction l generalizing h fuel with
  | nil =>
    have hh : h = none := hc
    subst hh
    cases fuel <;> rfl
  | cons p l ih =>
    obtain ⟨hh, n, hp, hl⟩ := hc
    subst hh
    cases fuel with
    | zero => simp at hfuel
    | succ fuel =>
      simp only [Heap.find, hp, Option.bind_eq_bind, Option.bind_some, List.find?_cons]
      by_cases hq : q p.2 = true
      · simp [hq]
      · rw [if_neg hq, ih hl (by simpa using hfuel)]
        simp [hq]

end Slist
