import Mathlib.Data.List.Nodup

/-!
# Doubly linked lists in a heap

Nodes live at addresses of a heap and point to each other through `prev` and `next`. `Seg m p h l q n`
says that, in the heap `m`, the nodes of the list `l` form a doubly linked segment: it is entered
through the pointer `h`, the first node points back to `p`, the last node is `q`, and its `next` is
`n`. A whole list is a segment from `none` to `none`. Segments compose by appending (`seg_append`),
and the two relinking lemmas `Seg.setNext` and `Seg.setPrev` are all that pointer surgery at one place
of a list needs. The surgeries themselves are `linkHead`, `linkAfter`, `linkLast` and `unlink`: they insert
a node in front of a list, insert it behind a node of the list or behind the last one, and take it out.
`walkLast` goes to the last node.
-/

namespace Dll

/-- Addresses of nodes. -/
abbrev Addr := Nat

/-- A node with payload `val`. -/
structure Node (β : Type) where
  /-- The payload. -/
  val : β
  /-- The node before this one. -/
  prev : Option Addr
  /-- The node after this one. -/
  next : Option Addr
deriving DecidableEq, Repr

/-- A heap: `none` at the addresses that are not allocated. -/
abbrev Heap (β : Type) := Addr → Option (Node β)

variable {β : Type}

/-- Apply `f` to the node at `a`. -/
def Heap.modify (m : Heap β) (a : Addr) (f : Node β → Node β) : Heap β :=
  Function.update m a ((m a).map f)

/-- Apply `f` to the node behind a pointer: `none` is the wild access of a null pointer or of an
address that is not allocated. -/
def Heap.store (m : Heap β) (p : Option Addr) (f : Node β → Node β) : Option (Heap β) :=
  match p with
  | none => none
  | some a => if (m a).isSome then some (m.modify a f) else none

/-- Change the payload of a node. -/
def Node.mapVal (f : β → β) (c : Node β) : Node β := { c with val := f c.val }

/-- Change the `next` pointer of a node. -/
def Node.withNext (n : Option Addr) (c : Node β) : Node β := { c with next := n }

/-- Change the `prev` pointer of a node. -/
def Node.withPrev (p : Option Addr) (c : Node β) : Node β := { c with prev := p }

/-- Change the `prev` pointer of the node behind `n`, if there is one. -/
def Heap.setPrev? (m : Heap β) (n : Option Addr) (p : Option Addr) : Heap β :=
  match n with
  | none => m
  | some a => m.modify a (Node.withPrev p)

/-- Change the `next` pointer of the node behind `p`, if there is one. -/
def Heap.setNext? (m : Heap β) (p : Option Addr) (n : Option Addr) : Heap β :=
  match p with
  | none => m
  | some a => m.modify a (Node.withNext n)

/-- Link `t` between no node and `h`. -/
def Heap.linkHead (m : Heap β) (t : Addr) (h : Option Addr) : Heap β :=
  ((m.modify t (Node.withPrev none)).modify t (Node.withNext h)).setPrev? h (some t)

/-- Link `t` between `p` and `n`. -/
def Heap.linkAfter (m : Heap β) (t p : Addr) (n : Option Addr) : Heap β :=
  (((m.modify p (Node.withNext (some t))).modify t (Node.withPrev (some p))).modify t
    (Node.withNext n)).setPrev? n (some t)

/-- Link `p` and `n` to each other. -/
def Heap.unlink (m : Heap β) (p n : Option Addr) : Heap β :=
  (m.setNext? p n).setPrev? n p

/-- Link `t` behind the last node `p` of a list. The `next` pointer of `t` is left as it is. -/
def Heap.linkLast (m : Heap β) (t p : Addr) : Option (Heap β) := do
  let m ← m.store (some p) (Node.withNext (some t))
  m.store (some t) (Node.withPrev (some p))

/-- The walk from the node at `a` to the last one, of at most `fuel` nodes. -/
def Heap.walkLast (m : Heap β) : Nat → Addr → Option Addr
  | 0, _ => none
  | fuel + 1, a => do
    let c ← m a
    match c.next with
    | none => some a
    | some n => walkLast m fuel n

/-- The nodes of `l` form a doubly linked segment of `m` between `p` and `n`, entered at `h` and with
last node `q`. -/
def Seg (m : Heap β) : Option Addr → Option Addr → List Addr → Option Addr → Option Addr → Prop
  | p, h, [], q, n => h = n ∧ q = p
  | p, h, a :: l, q, n => h = some a ∧ ∃ c, m a = some c ∧ c.prev = p ∧ Seg m (some a) c.next l q n

/-- The nodes of `l` are chained through their `next` pointers, from `h` to the end. -/
def Chain (m : Heap β) : Option Addr → List Addr → Prop
  | h, [] => h = none
  | h, a :: l => h = some a ∧ ∃ c, m a = some c ∧ Chain m c.next l

/-! ## Heap updates -/

@[simp] theorem Heap.modify_same (m : Heap β) (a : Addr) (f : Node β → Node β) :
    m.modify a f a = (m a).map f := by
  simp [Heap.modify]

theorem Heap.modify_other (m : Heap β) {a b : Addr} (f : Node β → Node β) (h : b ≠ a) :
    m.modify a f b = m b := by
  simp [Heap.modify, Function.update_of_ne h]

theorem Heap.store_some {m : Heap β} {a : Addr} {c : Node β} (h : m a = some c)
    (f : Node β → Node β) : m.store (some a) f = some (m.modify a f) := by
  simp [Heap.store, h]

/-- A heap update that changes links only keeps all payloads. -/
theorem Heap.modify_val (m : Heap β) (a : Addr) (f : Node β → Node β) (hf : ∀ c, (f c).val = c.val)
    (b : Addr) : (m.modify a f b).map Node.val = (m b).map Node.val := by
  by_cases h : b = a
  · subst h
    cases hb : m b <;> simp [hb, hf]
  · rw [Heap.modify_other m f h]

@[simp] theorem Heap.withNext_val (m : Heap β) (a : Addr) (n : Option Addr) (b : Addr) :
    (m.modify a (Node.withNext n) b).map Node.val = (m b).map Node.val :=
  m.modify_val a (Node.withNext n) (fun _ => rfl) b

@[simp] theorem Heap.withPrev_val (m : Heap β) (a : Addr) (p : Option Addr) (b : Addr) :
    (m.modify a (Node.withPrev p) b).map Node.val = (m b).map Node.val :=
  m.modify_val a (Node.withPrev p) (fun _ => rfl) b

@[simp] theorem Heap.setPrev?_val (m : Heap β) (n p : Option Addr) (b : Addr) :
    (m.setPrev? n p b).map Node.val = (m b).map Node.val := by
  cases n <;> simp [Heap.setPrev?]

@[simp] theorem Heap.setNext?_val (m : Heap β) (p n : Option Addr) (b : Addr) :
    (m.setNext? p n b).map Node.val = (m b).map Node.val := by
  cases p <;> simp [Heap.setNext?]

theorem Heap.setPrev?_other (m : Heap β) {n : Option Addr} (p : Option Addr) {b : Addr}
    (h : n ≠ some b) : m.setPrev? n p b = m b := by
  cases n with
  | none => rfl
  | some a => exact Heap.modify_other m _ fun e => h (by rw [e])

theorem Heap.setNext?_other (m : Heap β) {p : Option Addr} (n : Option Addr) {b : Addr}
    (h : p ≠ some b) : m.setNext? p n b = m b := by
  cases p with
  | none => rfl
  | some a => exact Heap.modify_other m _ fun e => h (by rw [e])

@[simp] theorem Heap.linkHead_val (m : Heap β) (t : Addr) (h : Option Addr) (b : Addr) :
    (m.linkHead t h b).map Node.val = (m b).map Node.val := by
  simp [Heap.linkHead]

@[simp] theorem Heap.linkAfter_val (m : Heap β) (t p : Addr) (n : Option Addr) (b : Addr) :
    (m.linkAfter t p n b).map Node.val = (m b).map Node.val := by
  simp [Heap.linkAfter]

@[simp] theorem Heap.unlink_val (m : Heap β) (p n : Option Addr) (b : Addr) :
    (m.unlink p n b).map Node.val = (m b).map Node.val := by
  simp [Heap.unlink]

theorem Heap.linkHead_other (m : Heap β) {t : Addr} {h : Option Addr} {b : Addr} (ht : b ≠ t)
    (hh : h ≠ some b) : m.linkHead t h b = m b := by
  rw [Heap.linkHead, Heap.setPrev?_other _ _ hh, Heap.modify_other _ _ ht, Heap.modify_other _ _ ht]

theorem Heap.linkAfter_other (m : Heap β) {t p : Addr} {n : Option Addr} {b : Addr} (ht : b ≠ t)
    (hp : b ≠ p) (hn : n ≠ some b) : m.linkAfter t p n b = m b := by
  rw [Heap.linkAfter, Heap.setPrev?_other _ _ hn, Heap.modify_other _ _ ht, Heap.modify_other _ _ ht,
    Heap.modify_other _ _ hp]

theorem Heap.unlink_other (m : Heap β) {p n : Option Addr} {b : Addr} (hp : p ≠ some b)
    (hn : n ≠ some b) : m.unlink p n b = m b := by
  rw [Heap.unlink, Heap.setPrev?_other _ _ hn, Heap.setNext?_other _ _ hp]

/-! ## Segments -/

theorem seg_append (m : Heap β) (l₁ l₂ : List Addr) (p h q n : Option Addr) :
    Seg m p h (l₁ ++ l₂) q n ↔ ∃ q' n', Seg m p h l₁ q' n' ∧ Seg m q' n' l₂ q n := by
  induction l₁ generalizing p h with
  | nil => simp [Seg]
  | cons a l ih =>
    simp only [List.cons_append, Seg, ih]
    constructor
    · rintro ⟨rfl, c, hc, hp, q', n', h₁, h₂⟩
      exact ⟨q', n', ⟨rfl, c, hc, hp, h₁⟩, h₂⟩
    · rintro ⟨q', n', ⟨rfl, c, hc, hp, h₁⟩, h₂⟩
      exact ⟨rfl, c, hc, hp, q', n', h₁, h₂⟩

/-- A segment depends on the links of its own nodes only. -/
theorem Seg.congr_links {m m' : Heap β} {l : List Addr} {p h q n : Option Addr}
    (hs : Seg m p h l q n)
    (hm : ∀ a ∈ l, ∀ c, m a = some c → ∃ c', m' a = some c' ∧ c'.prev = c.prev ∧ c'.next = c.next) :
    Seg m' p h l q n := by
  induction l generalizing p h with
  | nil => exact hs
  | cons a l ih =>
    obtain ⟨rfl, c, hc, hp, hl⟩ := hs
    obtain ⟨c', hc', hp', hn'⟩ := hm a (by simp) c hc
    exact ⟨rfl, c', hc', hp'.trans hp, hn' ▸ ih hl fun b hb => hm b (by simp [hb])⟩

/-- A segment depends on its own nodes only. -/
theorem Seg.congr {m m' : Heap β} {l : List Addr} {p h q n : Option Addr} (hs : Seg m p h l q n)
    (hm : ∀ a ∈ l, m' a = m a) : Seg m' p h l q n :=
  hs.congr_links fun a ha c hc => ⟨c, by rw [hm a ha, hc], rfl, rfl⟩

/-- The last node of a segment and the rest of it. -/
theorem seg_snoc (m : Heap β) (l : List Addr) (b : Addr) (p h q n : Option Addr) :
    Seg m p h (l ++ [b]) q n ↔
      ∃ c, Seg m p h l c.prev (some b) ∧ m b = some c ∧ c.next = n ∧ q = some b := by
  rw [seg_append]
  constructor
  · rintro ⟨q', n', h₁, rfl, c, hc, rfl, hn, hq⟩
    exact ⟨c, h₁, hc, hn, hq⟩
  · rintro ⟨c, h₁, hc, hn, rfl⟩
    exact ⟨c.prev, some b, h₁, rfl, c, hc, rfl, hn, rfl⟩

/-- Every node of a segment is allocated. -/
theorem Seg.isSome {m : Heap β} {l : List Addr} {p h q n : Option Addr} (hs : Seg m p h l q n)
    {a : Addr} (ha : a ∈ l) : ∃ c, m a = some c := by
  induction l generalizing p h with
  | nil => simp at ha
  | cons b l ih =>
    obtain ⟨-, c, hc, -, hl⟩ := hs
    rcases List.mem_cons.mp ha with rfl | ha
    · exact ⟨c, hc⟩
    · exact ih hl ha

/-- Redirecting the `next` pointer of the last node redirects the segment. -/
theorem Seg.setNext {m : Heap β} {l : List Addr} {b : Addr} {p h q n : Option Addr}
    (hs : Seg m p h (l ++ [b]) q n) (hb : b ∉ l) (n' : Option Addr) :
    Seg (m.modify b (Node.withNext n')) p h (l ++ [b]) q n' := by
  obtain ⟨c, h₁, hc, -, rfl⟩ := (seg_snoc ..).1 hs
  refine (seg_snoc ..).2 ⟨c.withNext n', h₁.congr fun a ha => ?_, by simp [hc], rfl, rfl⟩
  exact Heap.modify_other m _ fun e => hb (e ▸ ha)

/-- Redirecting the `prev` pointer of the first node redirects the segment. -/
theorem Seg.setPrev {m : Heap β} {l : List Addr} {b : Addr} {p h q n : Option Addr}
    (hs : Seg m p h (b :: l) q n) (hb : b ∉ l) (p' : Option Addr) :
    Seg (m.modify b (Node.withPrev p')) p' h (b :: l) q n := by
  obtain ⟨rfl, c, hc, -, hl⟩ := hs
  refine ⟨rfl, c.withPrev p', by simp [hc], rfl, hl.congr fun a ha => ?_⟩
  exact Heap.modify_other m _ fun e => hb (e ▸ ha)

/-- Redirecting the `prev` pointer of the first node, if there is one. -/
theorem Seg.setPrev? {m : Heap β} {l : List Addr} {p n' q : Option Addr} (hs : Seg m p n' l q none)
    (hnd : l.Nodup) (p' : Option Addr) :
    ∃ q', Seg (m.setPrev? l.head? p') p' n' l q' none := by
  cases l with
  | nil => exact ⟨p', hs.1, rfl⟩
  | cons b l => exact ⟨q, hs.setPrev (List.nodup_cons.1 hnd).1 p'⟩

theorem Seg.head? {m : Heap β} {l : List Addr} {p h q : Option Addr} (hs : Seg m p h l q none) :
    h = l.head? := by
  cases l with
  | nil => exact hs.1
  | cons b l => exact hs.1

/-- A heap holds one list at a pointer. -/
theorem Seg.unique {m : Heap β} {l l' : List Addr} {p h q q' : Option Addr} (hs : Seg m p h l q none)
    (hs' : Seg m p h l' q' none) : l = l' := by
  induction l generalizing p h l' with
  | nil =>
    obtain ⟨rfl, -⟩ := hs
    cases l' with
    | nil => rfl
    | cons a l' => cases hs'.1
  | cons a l ih =>
    obtain ⟨rfl, c, hc, -, hl⟩ := hs
    cases l' with
    | nil => cases hs'.1
    | cons b l' =>
      obtain ⟨hab, c', hc', -, hl'⟩ := hs'
      obtain rfl := Option.some.inj hab
      obtain rfl : c' = c := Option.some.inj (hc'.symm.trans hc)
      rw [ih hl hl']

/-- Inserting a node in front of a list. -/
theorem Seg.linkHead {m : Heap β} {l : List Addr} {h q : Option Addr} {t : Addr} {c : Node β}
    (hs : Seg m none h l q none) (hnd : l.Nodup) (ht : t ∉ l) (hc : m t = some c) :
    ∃ q', Seg (m.linkHead t h) none (some t) (t :: l) q' none := by
  have hh := hs.head?
  set m₂ := (m.modify t (Node.withPrev none)).modify t (Node.withNext h) with hm₂
  have hs₂ : Seg m₂ none h l q none := hs.congr fun a ha => by
    have hat : a ≠ t := fun e => ht (e ▸ ha)
    rw [hm₂, Heap.modify_other _ _ hat, Heap.modify_other _ _ hat]
  have ht₂ : m₂ t = some ((c.withPrev none).withNext h) := by simp [hm₂, hc]
  obtain ⟨q', hs₃⟩ := hs₂.setPrev? hnd (some t)
  rw [← hh] at hs₃
  refine ⟨q', rfl, (c.withPrev none).withNext h, ?_, rfl, hs₃⟩
  rw [← ht₂]
  exact Heap.setPrev?_other _ _ (hh ▸ fun e => ht (List.mem_of_mem_head? e))

/-- Inserting a node behind the node `p` of a list. -/
theorem Seg.linkAfter {m : Heap β} {l₁ l₂ : List Addr} {p t : Addr} {h q : Option Addr} {c : Node β}
    (hs : Seg m none h (l₁ ++ p :: l₂) q none) (hnd : (l₁ ++ p :: l₂).Nodup)
    (ht : t ∉ l₁ ++ p :: l₂) (hc : m t = some c) :
    ∃ q', Seg (m.linkAfter t p l₂.head?) none h (l₁ ++ p :: t :: l₂) q' none := by
  have hs' : Seg m none h ((l₁ ++ [p]) ++ l₂) q none := by simpa using hs
  obtain ⟨q', n', h₁, h₂⟩ := (seg_append ..).1 hs'
  obtain ⟨_, _, _, _, rfl⟩ := (seg_snoc ..).1 h₁
  simp only [List.nodup_append, List.nodup_cons, List.mem_append, List.mem_cons] at hnd ht
  set m₁ := m.modify p (Node.withNext (some t)) with hm₁
  set m₃ := (m₁.modify t (Node.withPrev (some p))).modify t (Node.withNext l₂.head?) with hm₃
  have hm₃o : ∀ a, a ≠ t → m₃ a = m₁ a := fun a ha => by
    rw [hm₃, Heap.modify_other _ _ ha, Heap.modify_other _ _ ha]
  have ht₃ : m₃ t = some ((c.withPrev (some p)).withNext l₂.head?) := by
    have htp : t ≠ p := by grind
    have hm₁t : m₁ t = some c := by rw [hm₁, Heap.modify_other _ _ htp, hc]
    simp [hm₃, hm₁t]
  -- The part in front of `t` now ends in `t`, the part behind it starts at `t`.
  have hs₁ : Seg m₃ none h (l₁ ++ [p]) (some p) (some t) :=
    (h₁.setNext (by grind) (some t)).congr fun a ha => hm₃o a (by grind)
  have hs₂ : Seg m₃ (some p) n' l₂ q none := h₂.congr fun a ha => by
    rw [hm₃o a (by grind), hm₁, Heap.modify_other _ _ (by grind)]
  obtain ⟨q', hs₂'⟩ := hs₂.setPrev? hnd.2.1.2 (some t)
  have hne : ∀ a, a ∉ l₂ → l₂.head? ≠ some a := fun a ha e => ha (List.mem_of_mem_head? e)
  have key : Seg (m.linkAfter t p l₂.head?) none h ((l₁ ++ [p]) ++ t :: l₂) q' none := by
    refine (seg_append ..).2 ⟨some p, some t, hs₁.congr fun a ha => ?_, rfl,
      (c.withPrev (some p)).withNext l₂.head?, ?_, rfl, ?_⟩
    · exact Heap.setPrev?_other _ _ (hne a (by grind))
    · rw [← ht₃]; exact Heap.setPrev?_other _ _ (hne t (by grind))
    · rw [h₂.head?] at hs₂'; exact hs₂'
  exact ⟨q', by simpa using key⟩

/-- Taking a node out of a list. -/
theorem Seg.unlink {m : Heap β} {l₁ l₂ : List Addr} {t : Addr} {h q : Option Addr} {c : Node β}
    (hs : Seg m none h (l₁ ++ t :: l₂) q none) (hnd : (l₁ ++ t :: l₂).Nodup) (hc : m t = some c) :
    (∃ q', Seg (m.unlink c.prev c.next) none (if c.prev = none then c.next else h) (l₁ ++ l₂) q' none) ∧
      c.prev = l₁.getLast? ∧ c.next = l₂.head? := by
  obtain ⟨q₁, n₁, h₁, rfl, c', hc', rfl, h₂⟩ := (seg_append ..).1 hs
  obtain rfl : c' = c := Option.some.inj (hc'.symm.trans hc)
  simp only [List.nodup_append, List.nodup_cons, List.mem_cons] at hnd
  have hnext : c'.next = l₂.head? := h₂.head?
  have hne : ∀ a, a ∉ l₂ → l₂.head? ≠ some a := fun a ha e => ha (List.mem_of_mem_head? e)
  rcases List.eq_nil_or_concat' l₁ with rfl | ⟨l₀, w, rfl⟩
  · have hprev : c'.prev = none := h₁.2
    obtain ⟨q', hs'⟩ := h₂.setPrev? hnd.2.1.2 none
    refine ⟨⟨q', ?_⟩, by simp [hprev], hnext⟩
    rw [← hnext] at hs'
    simpa [Heap.unlink, Heap.setNext?, hprev] using hs'
  · obtain ⟨cw, hl₀, hw, -, hq⟩ := (seg_snoc ..).1 h₁
    have h₁' := h₁.setNext (by grind) c'.next
    have h₂' : Seg (m.modify w (Node.withNext c'.next)) (some t) c'.next l₂ q none :=
      h₂.congr fun a ha => Heap.modify_other _ _ (by grind)
    obtain ⟨q', hs'⟩ := h₂'.setPrev? hnd.2.1.2 (some w)
    refine ⟨⟨q', ?_⟩, by simp [hq], hnext⟩
    rw [hq, if_neg (by simp)]
    refine (seg_append ..).2 ⟨some w, c'.next, ?_, ?_⟩
    · rw [hq] at h₁'
      refine h₁'.congr fun a ha => ?_
      rw [Heap.unlink, hnext, Heap.setPrev?_other _ _ (hne a (by grind))]
      rfl
    · rw [← hnext] at hs'; exact hs'

/-- The walk over a list finds its last node. -/
theorem Seg.walkLast {m : Heap β} {l : List Addr} {b a : Addr} {p q : Option Addr}
    (hs : Seg m p (some a) (l ++ [b]) q none) {fuel : Nat} (hfuel : l.length < fuel) :
    m.walkLast fuel a = some b := by
  induction l generalizing p a fuel with
  | nil =>
    obtain ⟨hab, c, hc, -, hn, -⟩ := hs
    obtain rfl := Option.some.inj hab
    cases fuel with
    | zero => omega
    | succ fuel => simp [Heap.walkLast, hc, hn]
  | cons d l ih =>
    obtain ⟨had, c, hc, -, hl⟩ := hs
    obtain rfl := Option.some.inj had
    cases fuel with
    | zero => omega
    | succ fuel =>
      have hfuel : l.length < fuel := by simpa using hfuel
      have hn : ∃ n, c.next = some n := by
        cases l with
        | nil => exact ⟨_, hl.1⟩
        | cons e l => exact ⟨_, hl.1⟩
      obtain ⟨n, hn⟩ := hn
      rw [hn] at hl
      simp only [Heap.walkLast, hc, hn, Option.bind_eq_bind, Option.bind_some]
      exact ih hl hfuel

/-- Inserting a node behind the last node of a list. -/
theorem Seg.linkLast {m : Heap β} {l : List Addr} {b t : Addr} {h q : Option Addr} {c : Node β}
    (hs : Seg m none h (l ++ [b]) q none) (hnd : (l ++ [b]).Nodup) (ht : t ∉ l ++ [b]) (hc : m t = some c)
    (hn : c.next = none) :
    ∃ m', m.linkLast t b = some m' ∧ Seg m' none h (l ++ [b] ++ [t]) (some t) none ∧
      (∀ a, a ≠ b → a ≠ t → m' a = m a) ∧ ∀ a, (m' a).map Node.val = (m a).map Node.val := by
  obtain ⟨cb, -, hb, -, hq⟩ := (seg_snoc ..).1 hs
  have htb : t ≠ b := by
    rintro rfl
    exact ht (by simp)
  have hbl : b ∉ l := by
    intro hbl
    rw [List.nodup_append] at hnd
    exact hnd.2.2 b hbl b (by simp) rfl
  have ht₁ : m.modify b (Node.withNext (some t)) t = some c := by
    rw [Heap.modify_other _ _ htb, hc]
  refine ⟨(m.modify b (Node.withNext (some t))).modify t (Node.withPrev (some b)), ?_, ?_, ?_, ?_⟩
  · simp [Heap.linkLast, Heap.store_some hb, Heap.store_some ht₁]
  · refine (seg_snoc ..).2 ⟨c.withPrev (some b), ?_, ?_, hn, rfl⟩
    · have hs₁ := hs.setNext hbl (some t)
      rw [hq] at hs₁
      exact hs₁.congr fun a ha => Heap.modify_other _ _ fun hat => ht (hat ▸ ha)
    · rw [Heap.modify_same, ht₁]
      rfl
  · intro a hab hat
    rw [Heap.modify_other _ _ hat, Heap.modify_other _ _ hab]
  · intro a
    rw [Heap.withPrev_val, Heap.withNext_val]

/-- The `next` pointer of a node of a whole list leads to the node behind it. -/
theorem Seg.next_eq_iff {m : Heap β} {l : List Addr} {h q : Option Addr} (hs : Seg m none h l q none)
    {a b : Addr} (ha : a ∈ l) {c : Node β} (hc : m a = some c) :
    c.next = some b ↔ ∃ l₁ l₂, l = l₁ ++ a :: b :: l₂ := by
  constructor
  · intro hn
    obtain ⟨l₁, l₂, rfl⟩ := List.append_of_mem ha
    obtain ⟨q', n', -, -, c', hc', -, hl⟩ := (seg_append ..).1 hs
    obtain rfl : c' = c := Option.some.inj (hc'.symm.trans hc)
    cases l₂ with
    | nil => rw [show c'.next = none from hl.1] at hn; cases hn
    | cons z l₂ =>
      rw [show c'.next = some z from hl.1] at hn
      exact ⟨l₁, l₂, by rw [Option.some.inj hn]⟩
  · rintro ⟨l₁, l₂, rfl⟩
    obtain ⟨q', n', -, -, c', hc', -, hl⟩ := (seg_append ..).1 hs
    obtain rfl : c' = c := Option.some.inj (hc'.symm.trans hc)
    exact hl.1

/-- The `prev` pointer of a node of a whole list leads to the node before it. -/
theorem Seg.prev_eq_iff {m : Heap β} {l : List Addr} {h q : Option Addr} (hs : Seg m none h l q none)
    {a b : Addr} (hb : b ∈ l) {c : Node β} (hc : m b = some c) :
    c.prev = some a ↔ ∃ l₁ l₂, l = l₁ ++ a :: b :: l₂ := by
  constructor
  · intro hp
    obtain ⟨l₁, l₂, rfl⟩ := List.append_of_mem hb
    obtain ⟨q', n', hl, -, c', hc', hq, -⟩ := (seg_append ..).1 hs
    obtain rfl : c' = c := Option.some.inj (hc'.symm.trans hc)
    rcases List.eq_nil_or_concat' l₁ with rfl | ⟨l₀, w, rfl⟩
    · rw [hq, hl.2] at hp; cases hp
    · obtain ⟨-, -, -, -, hw⟩ := (seg_snoc ..).1 hl
      rw [hq, hw] at hp
      exact ⟨l₀, l₂, by simp [Option.some.inj hp]⟩
  · rintro ⟨l₁, l₂, rfl⟩
    obtain ⟨q', n', -, -, c', -, -, -, c'', hc'', hp, -⟩ := (seg_append ..).1 hs
    obtain rfl : c'' = c := Option.some.inj (hc''.symm.trans hc)
    exact hp

/-! ## Chains -/

/-- Every node of a chain is allocated. -/
theorem Chain.isSome {m : Heap β} {l : List Addr} {h : Option Addr} (hs : Chain m h l) {a : Addr}
    (ha : a ∈ l) : ∃ c, m a = some c := by
  induction l generalizing h with
  | nil => simp at ha
  | cons b l ih =>
    obtain ⟨-, c, hc, hl⟩ := hs
    rcases List.mem_cons.mp ha with rfl | ha
    · exact ⟨c, hc⟩
    · exact ih hl ha

/-- A chain depends on the links of its own nodes only. -/
theorem Chain.congr_links {m m' : Heap β} {l : List Addr} {h : Option Addr} (hs : Chain m h l)
    (hm : ∀ a ∈ l, ∀ c, m a = some c → ∃ c', m' a = some c' ∧ c'.next = c.next) : Chain m' h l := by
  induction l generalizing h with
  | nil => exact hs
  | cons a l ih =>
    obtain ⟨rfl, c, hc, hl⟩ := hs
    obtain ⟨c', hc', hn'⟩ := hm a (by simp) c hc
    exact ⟨rfl, c', hc', hn' ▸ ih hl fun b hb => hm b (by simp [hb])⟩

/-- A chain depends on its own nodes only. -/
theorem Chain.congr {m m' : Heap β} {l : List Addr} {h : Option Addr} (hs : Chain m h l)
    (hm : ∀ a ∈ l, m' a = m a) : Chain m' h l :=
  hs.congr_links fun a ha c hc => ⟨c, by rw [hm a ha, hc], rfl⟩

end Dll
