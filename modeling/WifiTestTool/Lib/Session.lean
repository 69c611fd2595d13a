import Mathlib.Data.List.Infix
import Mathlib.Logic.Function.Basic
import Mathlib.Logic.Function.Iterate
import WifiTestTool.Lib.Prog

/-!
# Two parties that take turns on a connection

Two programs are connected by two queues of symbols, one for each direction. A `Protocol` says what
they have to say to each other: in each of its states it is the turn of one of them, which says a word;
the word tells by itself where it ends, and with it the protocol goes on in another state.

What a party does with the connection is its `Port`: the symbols that the answer of a request takes from
its queue or puts on the queue of the other one. A party that keeps the contract `Port.contract` speaks
only when it is its turn, speaks the protocol, and does not take more than what belongs to the word that
it listens to; in turn it may rely on hearing the protocol. If each party by itself keeps its contract,
then in every interleaving of their steps both do, and what they have said and heard are prefixes of
one conversation (`Session.reach_good`).
-/

namespace Reactive

/-- The two ends of the connection. -/
inductive Side where
  | left
  | right
deriving DecidableEq

namespace Side

/-- The other end. -/
def other : Side → Side
  | left => right
  | right => left

@[simp] theorem other_other (d : Side) : d.other.other = d := by cases d <;> rfl

@[simp] theorem other_ne (d : Side) : d.other ≠ d := by cases d <;> decide

theorem ne_iff {d e : Side} : e ≠ d ↔ e = d.other := by cases d <;> cases e <;> decide

/-- What holds of an end and of the other one holds of both. -/
theorem both {p : Side → Prop} {d : Side} (h : p d) (h' : p d.other) (e : Side) : p e := by
  by_cases he : e = d
  · exact he ▸ h
  · exact ne_iff.1 he ▸ h'

end Side

/-- What two parties say to each other in turns. -/
structure Protocol (β : Type) where
  State : Type
  /-- Whose turn it is. -/
  turn : State → Side
  /-- The state after a word was said; `none` if it is no whole word of this state. -/
  next : State → List β → Option State
  /-- Saying nothing is no word. -/
  next_nil : ∀ q, next q [] = none
  /-- A word does not go on behind its end. -/
  ends : ∀ q w w', (next q w).isSome → (next q w').isSome → w <+: w' → w = w'

namespace Protocol

variable {β : Type}

/-- The words `ws` lead from the first state to the second one, all said by the same party. -/
inductive Path (T : Protocol β) (d : Side) : T.State → List (List β) → T.State → Prop where
  | nil (q : T.State) : Path T d q [] q
  | cons {q q' q'' : T.State} {w : List β} {ws : List (List β)} (hturn : T.turn q = d)
      (hnext : T.next q w = some q') (h : Path T d q' ws q'') : Path T d q (w :: ws) q''

theorem Path.snoc {T : Protocol β} {d : Side} {q q' q'' : T.State} {w : List β} {ws : List (List β)}
    (h : T.Path d q ws q') (hturn : T.turn q' = d) (hnext : T.next q' w = some q'') :
    T.Path d q (ws ++ [w]) q'' := by
  induction h with
  | nil q => exact .cons hturn hnext (.nil _)
  | cons hturn' hnext' _ ih => exact .cons hturn' hnext' (ih hturn hnext)

/-- A path is empty, or begins with a word. -/
theorem Path.inv {T : Protocol β} {d : Side} {q q' : T.State} {ws : List (List β)} (h : T.Path d q ws q') :
    ws = [] ∧ q = q' ∨
      ∃ w ws' q₁, ws = w :: ws' ∧ T.turn q = d ∧ T.next q w = some q₁ ∧ T.Path d q₁ ws' q' := by
  cases h with
  | nil => exact .inl ⟨rfl, rfl⟩
  | cons hturn hnext h => exact .inr ⟨_, _, _, rfl, hturn, hnext, h⟩

/-- No words of a party lead on where it is not its turn. -/
theorem Path.none_from {T : Protocol β} {d : Side} {q q' : T.State} {ws : List (List β)} (h : T.Path d q ws q')
    (hturn : T.turn q ≠ d) : ws = [] ∧ q = q' := by
  rcases h.inv with hnil | ⟨_, _, _, -, hturn', -⟩
  · exact hnil
  · exact absurd hturn' hturn

/-- No words of a party lead to a state that only the other one can bring about. -/
theorem Path.none_to {T : Protocol β} {d : Side} {q q' : T.State} {ws : List (List β)} (h : T.Path d q ws q')
    (hback : ∀ p w, T.next p w = some q' → T.turn p ≠ d) : ws = [] ∧ q = q' := by
  induction h with
  | nil q => exact ⟨rfl, rfl⟩
  | cons hturn hnext _ ih =>
    obtain ⟨-, rfl⟩ := ih hback
    exact absurd hturn (hback _ _ hnext)

/-- What a party has said and heard of the conversation. -/
structure View (T : Protocol β) where
  /-- The whole words, of both parties. -/
  log : List (List β)
  /-- The state of the protocol behind them. -/
  state : T.State
  /-- The beginning of the next word. -/
  cur : List β

namespace View

variable {T : Protocol β}

/-- The conversation has not begun. -/
def start (q : T.State) : View T := ⟨[], q, []⟩

/-- The symbols `bs` are said or heard. -/
def add (v : View T) (bs : List β) : View T :=
  match T.next v.state (v.cur ++ bs) with
  | some q => ⟨v.log ++ [v.cur ++ bs], q, []⟩
  | none => { v with cur := v.cur ++ bs }

/-- With `bs` the word is still one of the protocol, whole or not. -/
def Begins (v : View T) (bs : List β) : Prop := ∃ w, (T.next v.state w).isSome ∧ v.cur ++ bs <+: w

/-- As many symbols as `bs` has are still part of the word, whichever word it is. -/
def Within (v : View T) (bs : List β) : Prop :=
  ∀ w, (T.next v.state w).isSome → v.cur <+: w → v.cur.length + bs.length ≤ w.length

/-- The word has not ended, and is one of the protocol if it has begun. -/
def Open (v : View T) : Prop := T.next v.state v.cur = none ∧ (v.cur = [] ∨ v.Begins [])

theorem open_start (q : T.State) : (start q).Open := ⟨T.next_nil q, .inl rfl⟩

theorem add_whole {v : View T} {bs : List β} {q : T.State} (h : T.next v.state (v.cur ++ bs) = some q) :
    v.add bs = ⟨v.log ++ [v.cur ++ bs], q, []⟩ := by
  rw [add, h]

theorem add_part {v : View T} {bs : List β} (h : T.next v.state (v.cur ++ bs) = none) :
    v.add bs = { v with cur := v.cur ++ bs } := by
  rw [add, h]

theorem add_nil {v : View T} (h : T.next v.state v.cur = none) : v.add [] = v := by
  have hnext := h
  rw [← List.append_nil v.cur] at hnext
  rw [add_part hnext, List.append_nil]

/-- What is said in two pieces. -/
theorem add_add {v : View T} {bs : List β} (h : T.next v.state (v.cur ++ bs) = none) (bs' : List β) :
    (v.add bs).add bs' = v.add (bs ++ bs') := by
  rw [add_part h]
  unfold add
  rw [List.append_assoc]

theorem add_next (v : View T) (bs : List β) : T.next (v.add bs).state (v.add bs).cur = none := by
  cases hnext : T.next v.state (v.cur ++ bs) with
  | some q =>
    rw [add_whole hnext]
    exact T.next_nil q
  | none =>
    rw [add_part hnext]
    exact hnext

theorem Open.add {v : View T} {bs : List β} (h : v.Begins bs) : (v.add bs).Open := by
  cases hnext : T.next v.state (v.cur ++ bs) with
  | some q =>
    rw [add_whole hnext]
    exact ⟨T.next_nil q, .inl rfl⟩
  | none =>
    rw [add_part hnext]
    refine ⟨hnext, .inr ?_⟩
    obtain ⟨w, hw, hbs⟩ := h
    exact ⟨w, hw, by rwa [List.append_nil]⟩

/-- The beginning of a word that has not ended, where another word would fit: it is the beginning of that word. -/
theorem Open.prefix_of {v : View T} (h : v.Open) {w s : List β} (hw : (T.next v.state w).isSome)
    (hcur : v.cur <+: s) (hs : w <+: s) : v.cur <+: w := by
  rcases List.prefix_or_prefix_of_prefix hcur hs with hlt | hlt
  · exact hlt
  · rcases h.2 with hnil | ⟨w', hw', hlt'⟩
    · rw [hnil]
      exact List.nil_prefix
    · rw [List.append_nil] at hlt'
      have heq := T.ends _ _ _ hw hw' (hlt.trans hlt')
      have hsame : v.cur = w := List.IsPrefix.eq_of_length_le (heq ▸ hlt') hlt.length_le
      rw [hsame]

end View

end Protocol

/-! ## Parties -/

open Protocol (View)

/-- What a party does with the connection. -/
structure Port (σ : Type) {ρ : Type} (Ans : ρ → Type) (β : Type) where
  /-- What an answer takes from the connection. -/
  taken : σ → (r : ρ) → Ans r → List β
  /-- What an answer has put on the connection. -/
  given : σ → (r : ρ) → Ans r → List β
  /-- The answers that the environment may give, whatever is on the connection. -/
  allows : σ → (r : ρ) → Ans r → Prop
  oneWay : ∀ s r a, taken s r a = [] ∨ given s r a = []

variable {σ ρ η β α : Type} {Ans : ρ → Type}

namespace Port

/-- What the answer of a request adds to the conversation. -/
def moved (P : Port σ Ans β) (s : σ) (r : ρ) (a : Ans r) : List β := P.taken s r a ++ P.given s r a

/-- What is taken from the connection is what the other party has to say. -/
def Hears (P : Port σ Ans β) {T : Protocol β} (d : Side) (s : σ) (v : View T) (r : ρ) (a : Ans r) : Prop :=
  P.taken s r a ≠ [] → T.turn v.state = d.other ∧ v.Begins (P.taken s r a)

/-- What is put on the connection is what the party has to say, and what is taken from it is not more than the rest of
a word. -/
def Behaves (P : Port σ Ans β) {T : Protocol β} (d : Side) (s : σ) (v : View T) (r : ρ) (a : Ans r) : Prop :=
  (P.given s r a ≠ [] → T.turn v.state = d ∧ v.Begins (P.given s r a)) ∧
  (P.taken s r a ≠ [] → T.turn v.state = d.other → v.Within (P.taken s r a))

/-- The contract of the party at the end `d`. It owes `owes` besides, and the invariant `inv`. -/
def contract (P : Port σ Ans β) (T : Protocol β) (d : Side) (owes : σ → View T → ρ → Prop)
    (inv : σ → View T → Prop) : Contract σ Ans η (View T) where
  onCall s v r a := v.add (P.moved s r a)
  onWrite _ v := v
  allows s v r a := P.allows s r a ∧ P.Hears d s v r a
  ok s v r := owes s v r ∧ ∀ a, P.allows s r a →
    P.Behaves d s v r a ∧ (P.Hears d s v r a → inv s (v.add (P.moved s r a)))
  inv := inv
  mayHalt _ _ _ := True

end Port

/-- The two parties, what they have said and heard, and what is on its way to each of them. -/
structure Session (σ : Type) {ρ β : Type} (Ans : ρ → Type) (η α : Type) (T : Protocol β) where
  prog : Side → Prog σ Ans η α
  mem : Side → σ
  view : Side → View T
  coming : Side → List β

namespace Session

variable {T : Protocol β}

/-- Both parties are about to start, and the connection is empty. -/
def start (prog : Side → Prog σ Ans η α) (mem : Side → σ) (q : T.State) : Session σ Ans η α T :=
  ⟨prog, mem, fun _ => .start q, fun _ => []⟩

/-- One of the parties takes a step. What it takes from the connection is what is at the front of its queue. -/
inductive Step (P : Side → Port σ Ans β) : Session σ Ans η α T → Session σ Ans η α T → Prop where
  | read {c : Session σ Ans η α T} (d : Side) {k : σ → Prog σ Ans η α} (hprog : c.prog d = .read k) :
      Step P c { c with prog := Function.update c.prog d (k (c.mem d)) }
  | write {c : Session σ Ans η α T} (d : Side) {f : σ → σ} {k : Prog σ Ans η α} (hprog : c.prog d = .write f k) :
      Step P c { c with prog := Function.update c.prog d k, mem := Function.update c.mem d (f (c.mem d)) }
  | call {c : Session σ Ans η α T} (d : Side) {r : ρ} {k : Ans r → Prog σ Ans η α} (a : Ans r) {rest : List β}
      (hprog : c.prog d = .call r k) (hallows : (P d).allows (c.mem d) r a)
      (htaken : c.coming d = (P d).taken (c.mem d) r a ++ rest) :
      Step P c {
        prog := Function.update c.prog d (k a)
        mem := c.mem
        view := Function.update c.view d ((c.view d).add ((P d).moved (c.mem d) r a))
        coming := Function.update (Function.update c.coming d rest) d.other
          (c.coming d.other ++ (P d).given (c.mem d) r a) }

/-- Any number of steps, in any order. -/
abbrev Reach (P : Side → Port σ Ans β) : Session σ Ans η α T → Session σ Ans η α T → Prop :=
  Relation.ReflTransGen (Step P)

/-! ## One conversation -/

/-- The party at the end `d`, whose view is `v`, is ahead of the other one by some words of its own; what the other
one has not heard of them is `pending`. -/
structure Leads (d : Side) (v v' : View T) (pending : List β) : Prop where
  words : ∃ ws, v.log = v'.log ++ ws ∧ T.Path d v'.state ws v.state ∧ v'.cur ++ pending = ws.flatten ++ v.cur
  quiet : T.turn v.state ≠ d → v.cur = []

/-- One of the parties is ahead, and there is nothing on the way to it. -/
structure InStep (view : Side → View T) (coming : Side → List β) : Prop where
  isOpen : ∀ d, (view d).Open
  leads : ∃ d, Leads d (view d) (view d.other) (coming d.other) ∧ coming d = []

section Leads

variable {d : Side} {v v' : View T} {pending bs rest : List β}

theorem Leads.start (d : Side) (q : T.State) : Leads d (.start q) (.start q) ([] : List β) :=
  ⟨⟨[], rfl, .nil q, rfl⟩, fun _ => rfl⟩

/-- If it is the turn of the other party by its own view, then nobody is ahead. -/
theorem Leads.swap (h : Leads d v v' pending) (hturn : T.turn v'.state = d.other) :
    Leads d.other v' v [] ∧ pending = [] := by
  obtain ⟨⟨ws, hlog, hpath, hbytes⟩, hquiet⟩ := h
  obtain ⟨rfl, hstate⟩ := hpath.none_from (by rw [hturn]; exact Side.other_ne d)
  have hcur : v.cur = [] := hquiet (by rw [← hstate, hturn]; exact Side.other_ne d)
  rw [hcur] at hbytes
  obtain ⟨hcur', hpending⟩ := List.append_eq_nil_iff.1 hbytes
  refine ⟨⟨⟨[], ?_, ?_, ?_⟩, fun hne => absurd hturn hne⟩, hpending⟩
  · rw [hlog]
    simp
  · rw [hstate]
    exact .nil _
  · rw [hcur, hcur']
    rfl

/-- The party that is ahead says more. -/
theorem Leads.say (h : Leads d v v' pending) (hturn : T.turn v.state = d) : Leads d (v.add bs) v' (pending ++ bs) := by
  obtain ⟨⟨ws, hlog, hpath, hbytes⟩, -⟩ := h
  have hmore : v'.cur ++ (pending ++ bs) = ws.flatten ++ (v.cur ++ bs) := by
    rw [← List.append_assoc, hbytes, List.append_assoc]
  cases hnext : T.next v.state (v.cur ++ bs) with
  | some q =>
    rw [View.add_whole hnext]
    refine ⟨⟨ws ++ [v.cur ++ bs], ?_, hpath.snoc hturn hnext, ?_⟩, fun _ => rfl⟩
    · rw [hlog, List.append_assoc]
    · rw [hmore]
      simp
  | none =>
    rw [View.add_part hnext]
    exact ⟨⟨ws, hlog, hpath, hmore⟩, fun hne => absurd hturn hne⟩

/-- What the other party hears is said by the one that is ahead, and part of a word. -/
theorem Leads.hear (h : Leads d v v' (bs ++ rest)) (hv : v.Open) (hv' : v'.Open) (hbs : bs ≠ []) :
    T.turn v'.state = d ∧ (v'.Within bs → v'.Begins bs ∧ Leads d v (v'.add bs) rest) := by
  obtain ⟨⟨ws, hlog, hpath, hbytes⟩, hquiet⟩ := h
  rw [← List.append_assoc] at hbytes
  rcases hpath.inv with ⟨rfl, hstate⟩ | ⟨w, ws, q₁, rfl, hturn, hnext, hpath⟩
  · obtain ⟨log', q, cur'⟩ := v'
    obtain rfl : q = v.state := hstate
    rw [List.flatten_nil, List.nil_append] at hbytes
    dsimp only at hbytes hlog ⊢
    have hcur : v.cur ≠ [] := by
      rw [← hbytes]
      simp [hbs]
    have hturn : T.turn v.state = d := by
      by_contra hne
      exact hcur (hquiet hne)
    refine ⟨hturn, fun _ => ?_⟩
    have hfront : cur' ++ bs <+: v.cur := ⟨rest, hbytes⟩
    obtain ⟨w, hw, hword⟩ := hv.2.resolve_left hcur
    rw [List.append_nil] at hword
    refine ⟨⟨w, hw, hfront.trans hword⟩, ?_⟩
    -- The word has not ended for the party that says it, so it has not for the one that hears less of it.
    have hnext : T.next v.state (cur' ++ bs) = none := by
      cases hnext : T.next v.state (cur' ++ bs) with
      | none => rfl
      | some q =>
        have heq := T.ends v.state _ _ (by rw [hnext]; rfl) hw (hfront.trans hword)
        have hsame : v.cur = w := List.IsPrefix.eq_of_length_le hword (heq ▸ hfront.length_le)
        have hnone := hv.1
        rw [hsame, ← heq, hnext] at hnone
        cases hnone
    have hadd : (⟨log', v.state, cur'⟩ : View T).add bs = ⟨log', v.state, cur' ++ bs⟩ := View.add_part hnext
    rw [hadd]
    exact ⟨⟨[], hlog, .nil _, hbytes⟩, hquiet⟩
  · refine ⟨hturn, fun hwithin => ?_⟩
    have hw : (T.next v'.state w).isSome := by
      rw [hnext]
      rfl
    rw [List.flatten_cons, List.append_assoc w] at hbytes
    have hfront : w <+: v'.cur ++ bs ++ rest := ⟨ws.flatten ++ v.cur, hbytes.symm⟩
    have hcur := hv'.prefix_of hw ((List.prefix_append _ bs).trans (List.prefix_append _ rest)) hfront
    have hle := hwithin w hw hcur
    rw [← List.length_append] at hle
    have hpart := List.prefix_of_prefix_length_le (List.prefix_append _ rest) hfront hle
    refine ⟨⟨w, hw, hpart⟩, ?_⟩
    cases hadd : T.next v'.state (v'.cur ++ bs) with
    | some q =>
      have heq := T.ends _ _ _ (by rw [hadd]; rfl) hw hpart
      rw [heq, hnext] at hadd
      obtain rfl := Option.some_inj.1 hadd
      rw [heq, List.append_cancel_left_eq] at hbytes
      rw [View.add_whole (heq.symm ▸ hnext), heq]
      refine ⟨⟨ws, ?_, hpath, hbytes⟩, hquiet⟩
      rw [hlog, List.append_assoc]
      rfl
    | none =>
      rw [View.add_part hadd]
      refine ⟨⟨w :: ws, hlog, .cons hturn hnext hpath, ?_⟩, hquiet⟩
      rw [List.flatten_cons, List.append_assoc w]
      exact hbytes

end Leads

section InStep

variable {view : Side → View T} {coming : Side → List β} {d : Side} {bs rest : List β}

theorem InStep.start (q : T.State) : InStep (fun _ => View.start q) fun _ => ([] : List β) :=
  ⟨fun _ => View.open_start q, .left, .start _ q, rfl⟩

/-- A party says something. -/
theorem InStep.say (h : InStep view coming) (hturn : T.turn (view d).state = d) (hbs : (view d).Begins bs) :
    InStep (Function.update view d ((view d).add bs)) (Function.update coming d.other (coming d.other ++ bs)) := by
  obtain ⟨hopen, e, hleads, hnone⟩ := h
  obtain ⟨hleads, hnone⟩ : Leads d (view d) (view d.other) (coming d.other) ∧ coming d = [] := by
    by_cases he : e = d
    · exact he ▸ ⟨hleads, hnone⟩
    · obtain rfl := Side.ne_iff.1 he
      rw [Side.other_other] at hleads
      obtain ⟨hswap, hpending⟩ := hleads.swap (by rw [hturn, Side.other_other])
      rw [Side.other_other] at hswap
      rw [hnone]
      exact ⟨hswap, hpending⟩
  refine ⟨Side.both (d := d) ?_ ?_, d, ?_, ?_⟩
  · rw [Function.update_self]
    exact View.Open.add hbs
  · rw [Function.update_of_ne (Side.other_ne d)]
    exact hopen _
  · rw [Function.update_self, Function.update_of_ne (Side.other_ne d), Function.update_self]
    exact hleads.say hturn
  · rw [Function.update_of_ne (Side.other_ne d).symm]
    exact hnone

/-- A party hears something: it was the turn of the other one, which has said it. -/
theorem InStep.hear (h : InStep view coming) (hcoming : coming d = bs ++ rest) (hbs : bs ≠ []) :
    T.turn (view d).state = d.other ∧ ((view d).Within bs → (view d).Begins bs ∧
      InStep (Function.update view d ((view d).add bs)) (Function.update coming d rest)) := by
  obtain ⟨hopen, e, hleads, hnone⟩ := h
  have he : e = d.other := by
    refine Side.ne_iff.1 fun he => hbs ?_
    rw [he, hcoming] at hnone
    exact (List.append_eq_nil_iff.1 hnone).1
  subst he
  rw [Side.other_other, hcoming] at hleads
  obtain ⟨hturn, hhear⟩ := hleads.hear (hopen _) (hopen _) hbs
  refine ⟨hturn, fun hwithin => ?_⟩
  obtain ⟨hbegins, hleads'⟩ := hhear hwithin
  refine ⟨hbegins, Side.both (d := d) ?_ ?_, d.other, ?_, ?_⟩
  · rw [Function.update_self]
    exact View.Open.add hbegins
  · rw [Function.update_of_ne (Side.other_ne d)]
    exact hopen _
  · rw [Side.other_other, Function.update_self, Function.update_self, Function.update_of_ne (Side.other_ne d)]
    exact hleads'
  · rw [Function.update_of_ne (Side.other_ne d)]
    exact hnone

/-- Where only the other party can have led to the state of a party, the other one knows all that this one does. -/
theorem InStep.behind (h : InStep view coming) (hback : ∀ q w, T.next q w = some (view d).state → T.turn q ≠ d) :
    ∃ ws, (view d.other).log = (view d).log ++ ws ∧ T.Path d.other (view d).state ws (view d.other).state := by
  obtain ⟨e, ⟨⟨ws, hlog, hpath, -⟩, -⟩, -⟩ := h.leads
  by_cases he : e = d
  · subst he
    obtain ⟨rfl, hstate⟩ := hpath.none_to hback
    rw [List.append_nil] at hlog
    refine ⟨[], by rw [hlog, List.append_nil], ?_⟩
    rw [hstate]
    exact .nil _
  · obtain rfl : e = d.other := Side.ne_iff.1 he
    rw [Side.other_other] at hlog hpath
    exact ⟨ws, hlog, hpath⟩

/-- Where a party has got its turn from the other one, and has not used it, neither of them is ahead. -/
theorem InStep.together (h : InStep view coming) (hturn : T.turn (view d).state = d)
    (hback : ∀ q w, T.next q w = some (view d).state → T.turn q ≠ d) :
    (view d.other).log = (view d).log ∧ (view d.other).state = (view d).state := by
  obtain ⟨ws, hlog, hpath⟩ := h.behind hback
  obtain ⟨rfl, hstate⟩ := hpath.none_from (by rw [hturn]; exact (Side.other_ne d).symm)
  exact ⟨by rw [hlog, List.append_nil], hstate.symm⟩

end InStep

/-! ## Runs -/

section Runs

variable {P : Side → Port σ Ans β} {owes : Side → σ → View T → ρ → Prop} {inv : Side → σ → View T → Prop}
  {Q : Side → α → σ → View T → Prop} {c c' : Session σ Ans η α T}

/-- Both parties keep their contracts, and their views are of one conversation. -/
structure Good (P : Side → Port σ Ans β) (owes : Side → σ → View T → ρ → Prop) (inv : Side → σ → View T → Prop)
    (Q : Side → α → σ → View T → Prop) (c : Session σ Ans η α T) : Prop where
  safe : ∀ d, (c.prog d).Safe ((P d).contract T d (owes d) (inv d)) (Q d) (c.mem d) (c.view d)
  inv : ∀ d, inv d (c.mem d) (c.view d)
  inStep : InStep c.view c.coming

/-- A step of one party leaves the other one alone. -/
theorem Good.step_of (h : c.Good P owes inv Q) {d : Side} (hprog : ∀ e, e ≠ d → c'.prog e = c.prog e)
    (hmem : ∀ e, e ≠ d → c'.mem e = c.mem e) (hview : ∀ e, e ≠ d → c'.view e = c.view e)
    (hsafe : (c'.prog d).Safe ((P d).contract T d (owes d) (inv d)) (Q d) (c'.mem d) (c'.view d))
    (hinv : inv d (c'.mem d) (c'.view d)) (hstep : InStep c'.view c'.coming) : c'.Good P owes inv Q := by
  have hne := Side.other_ne d
  refine ⟨Side.both hsafe ?_, Side.both hinv ?_, hstep⟩
  · rw [hprog _ hne, hmem _ hne, hview _ hne]
    exact h.safe _
  · rw [hmem _ hne, hview _ hne]
    exact h.inv _

theorem Good.step (h : c.Good P owes inv Q) (hs : Step P c c') : c'.Good P owes inv Q := by
  cases hs with
  | read d hprog =>
    have hsafe := h.safe d
    rw [hprog] at hsafe
    refine h.step_of (d := d) (fun e he => Function.update_of_ne he ..) (fun _ _ => rfl) (fun _ _ => rfl) ?_
      (h.inv d) h.inStep
    dsimp only
    rw [Function.update_self]
    exact hsafe
  | write d hprog =>
    have hsafe := h.safe d
    rw [hprog] at hsafe
    refine h.step_of (d := d) (fun e he => Function.update_of_ne he ..) (fun e he => Function.update_of_ne he ..)
      (fun _ _ => rfl) ?_ ?_ h.inStep
    · dsimp only
      rw [Function.update_self, Function.update_self]
      exact hsafe.2
    · dsimp only
      rw [Function.update_self]
      exact hsafe.1
  | @call d r k a rest hprog hallows htaken =>
    have hsafe := h.safe d
    rw [hprog] at hsafe
    obtain ⟨⟨-, hduty⟩, hrest⟩ := hsafe
    obtain ⟨⟨hgiven, htake⟩, hinv⟩ := hduty a hallows
    suffices hmove : (P d).Hears d (c.mem d) (c.view d) r a ∧
        InStep (Function.update c.view d ((c.view d).add ((P d).moved (c.mem d) r a)))
          (Function.update (Function.update c.coming d rest) d.other
            (c.coming d.other ++ (P d).given (c.mem d) r a)) by
      refine h.step_of (d := d) (fun e he => Function.update_of_ne he ..) (fun _ _ => rfl)
        (fun e he => Function.update_of_ne he ..) ?_ ?_ hmove.2
      · dsimp only
        rw [Function.update_self, Function.update_self]
        exact hrest a ⟨hallows, hmove.1⟩
      · dsimp only
        rw [Function.update_self]
        exact hinv hmove.1
    by_cases hnone : (P d).taken (c.mem d) r a = []
    · -- The party says something, or does not touch the connection.
      rw [hnone] at htaken
      rw [Port.moved, hnone, List.nil_append]
      have hsame : Function.update c.coming d rest = c.coming := by
        rw [Function.update_eq_self_iff]
        exact htaken.symm
      rw [hsame]
      refine ⟨fun hne => absurd hnone hne, ?_⟩
      by_cases hquiet : (P d).given (c.mem d) r a = []
      · rw [hquiet, List.append_nil, Function.update_eq_self, View.add_nil (h.inStep.isOpen d).1, Function.update_eq_self]
        exact h.inStep
      · exact h.inStep.say (hgiven hquiet).1 (hgiven hquiet).2
    · have hgone := ((P d).oneWay (c.mem d) r a).resolve_left hnone
      rw [Port.moved, hgone, List.append_nil, List.append_nil]
      have hother : Function.update (Function.update c.coming d rest) d.other (c.coming d.other) =
          Function.update c.coming d rest := by
        rw [Function.update_eq_self_iff]
        exact (Function.update_of_ne (Side.other_ne d) ..).symm
      rw [hother]
      obtain ⟨hturn, hhear⟩ := h.inStep.hear htaken hnone
      obtain ⟨hbegins, hstep⟩ := hhear (htake hnone hturn)
      exact ⟨fun _ => ⟨hturn, hbegins⟩, hstep⟩

/-- **Two parties of which each keeps its contract.** In every interleaving of their steps both of them do, and their
views are of one conversation. -/
theorem reach_good {prog : Side → Prog σ Ans η α} {mem : Side → σ} {q : T.State}
    (hsafe : ∀ d, (prog d).Safe ((P d).contract T d (owes d) (inv d)) (Q d) (mem d) (View.start q))
    (hinv : ∀ d, inv d (mem d) (View.start q)) (hr : Reach P (start prog mem q) c) : c.Good P owes inv Q := by
  induction hr with
  | refl => exact ⟨hsafe, hinv, .start q⟩
  | tail _ hstep ih => exact ih.step hstep

end Runs

/-! ## Runs on fixed inputs -/

section Drive

variable (P : Side → Port σ Ans β) [DecidableEq β] [∀ d s r a, Decidable ((P d).allows s r a)]
  (oracle : σ → List β → (r : ρ) → Ans r)

/-- One of the parties goes on. A request gets the answer of `oracle`, which sees what is on its way to the party; the
party waits where this is no answer that it may get. -/
def advance (d : Side) (c : Session σ Ans η α T) : Session σ Ans η α T :=
  match c.prog d with
  | .read k => { c with prog := Function.update c.prog d (k (c.mem d)) }
  | .write f k => { c with prog := Function.update c.prog d k, mem := Function.update c.mem d (f (c.mem d)) }
  | .call r k =>
    let a := oracle (c.mem d) (c.coming d) r
    let taken := (P d).taken (c.mem d) r a
    if (P d).allows (c.mem d) r a ∧ taken <+: c.coming d then {
      prog := Function.update c.prog d (k a)
      mem := c.mem
      view := Function.update c.view d ((c.view d).add ((P d).moved (c.mem d) r a))
      coming := Function.update (Function.update c.coming d ((c.coming d).drop taken.length)) d.other
        (c.coming d.other ++ (P d).given (c.mem d) r a) }
    else
      c
  | _ => c

/-- The parties take so many steps each, in turns. -/
def drive : List (Side × Nat) → Session σ Ans η α T → Session σ Ans η α T
  | [], c => c
  | (d, n) :: turns, c => drive turns ((advance P oracle d)^[n] c)

theorem advance_reach (d : Side) (c : Session σ Ans η α T) : Reach P c (advance P oracle d c) := by
  unfold advance
  split
  · rename_i hprog
    exact .single (.read d hprog)
  · rename_i hprog
    exact .single (.write d hprog)
  · rename_i hprog
    dsimp only
    split
    · rename_i h
      exact .single (.call d _ hprog h.1 (List.prefix_iff_eq_append.1 h.2).symm)
    · exact .refl
  · exact .refl

theorem advance_iterate_reach (d : Side) (n : Nat) (c : Session σ Ans η α T) :
    Reach P c ((advance P oracle d)^[n] c) := by
  induction n generalizing c with
  | zero => exact .refl
  | succ n ih => exact (advance_reach P oracle d c).trans (ih _)

theorem drive_reach (turns : List (Side × Nat)) (c : Session σ Ans η α T) : Reach P c (drive P oracle turns c) := by
  induction turns generalizing c with
  | nil => exact .refl
  | cons turn turns ih => exact (advance_iterate_reach P oracle turn.1 turn.2 c).trans (ih _)

end Drive

end Session

end Reactive
