import Mathlib.Data.List.Cycle
import Mathlib.Logic.Function.Basic

namespace Usbip.Library.Ring

open Function List

-- The links of a node of a doubly linked ring.
structure Entry (π : Type) where
  flink : π
  blink : π
  deriving DecidableEq, Repr

-- `none` is a place where there is no node: it can be neither read nor written.
abbrev Memory (π : Type) := π → Option (Entry π)

variable {π : Type}

def flink (m : Memory π) (p : π) : Option π := (m p).map Entry.flink

def blink (m : Memory π) (p : π) : Option π := (m p).map Entry.blink

def Linked (m : Memory π) (p q : π) : Prop := flink m p = some q ∧ blink m q = some p

-- The nodes of a ring in the order of their forward links, from any of them on.
structure IsRing (m : Memory π) (nodes : List π) : Prop where
  nodup : nodes.Nodup
  chain : Cycle.Chain (Linked m) ↑nodes

section Operations

variable [DecidableEq π]

def write (m : Memory π) (p : π) (f : Entry π → Entry π) : Option (Memory π) :=
  (m p).map fun e => update m p (some (f e))

def setFlink (m : Memory π) (p q : π) : Option (Memory π) := write m p fun e => { e with flink := q }

def setBlink (m : Memory π) (p q : π) : Option (Memory π) := write m p fun e => { e with blink := q }

def initializeListHead (m : Memory π) (head : π) : Option (Memory π) :=
  write m head fun _ => { flink := head, blink := head }

def insertHeadList (m : Memory π) (head entry : π) : Option (Memory π) := do
  let next ← flink m head
  let m ← write m entry fun _ => { flink := next, blink := head }
  let m ← setBlink m next entry
  setFlink m head entry

def insertTailList (m : Memory π) (head entry : π) : Option (Memory π) := do
  let prev ← blink m head
  let m ← write m entry fun _ => { flink := head, blink := prev }
  let m ← setFlink m prev entry
  setBlink m head entry

def removeEntryList (m : Memory π) (entry : π) : Option (Memory π) := do
  let e ← m entry
  let m ← setFlink m e.blink e.flink
  setBlink m e.flink e.blink

-- The loop that looks for an entry, from `entry` on until it is back at the head.
def findFrom (m : Memory π) (found : π → Bool) (head : π) : Nat → π → Option (Option π)
  | 0, _ => none
  | fuel + 1, entry =>
    if entry = head then some none
    else if found entry then some (some entry)
    else (flink m entry).bind (findFrom m found head fuel)

end Operations

variable {m m' : Memory π} {head entry p q x : π} {l : List π}

theorem isRing_cons : IsRing m (p :: l) ↔ (p :: l).Nodup ∧ IsChain (Linked m) (p :: (l ++ [p])) :=
  ⟨fun h => ⟨h.nodup, h.chain⟩, fun h => ⟨h.1, h.2⟩⟩

theorem isRing_singleton : IsRing m [p] ↔ Linked m p p := by
  simp [isRing_cons]

-- A ring can be turned until any of its parts comes first.
theorem IsRing.turn {front back : List π} (h : IsRing m (front ++ back)) : IsRing m (back ++ front) := by
  have hrot : (↑(front ++ back) : Cycle π) = ↑(back ++ front) := Cycle.coe_eq_coe.mpr List.isRotated_append
  refine ⟨(List.nodup_append_comm).mp h.nodup, ?_⟩
  rw [← hrot]
  exact h.chain

-- What a chain needs of the memory: the forward links but the last one, the backward links but the first one.
theorem isChain_congr (h : IsChain (Linked m) l) (hf : ∀ p ∈ l.dropLast, flink m' p = flink m p)
    (hb : ∀ p ∈ l.tail, blink m' p = blink m p) : IsChain (Linked m') l := by
  induction l with
  | nil => exact .nil
  | cons p rest ih =>
      cases rest with
      | nil => exact .singleton p
      | cons q rest =>
          rw [isChain_cons_cons] at h ⊢
          obtain ⟨⟨hpq, hqp⟩, hrest⟩ := h
          have hp := hf p (by simp)
          have hq := hb q (by simp)
          refine ⟨⟨hp.trans hpq, hq.trans hqp⟩, ih hrest (fun r hr => ?_) (fun r hr => ?_)⟩
          · apply hf r
            simpa using .inr hr
          · apply hb r
            simpa using .inr hr

theorem IsRing.congr {nodes : List π} (h : IsRing m nodes) (hsame : ∀ p ∈ nodes, m' p = m p) : IsRing m' nodes := by
  refine ⟨h.nodup, ?_⟩
  cases nodes with
  | nil => exact Cycle.Chain.nil _
  | cons p rest =>
      have hp : ∀ q ∈ p :: (rest ++ [p]), m' q = m q := by
        intro q hq
        apply hsame q
        simp only [mem_cons, mem_append, not_mem_nil, or_false] at hq ⊢
        tauto
      refine isChain_congr h.chain (fun q hq => ?_) (fun q hq => ?_)
      · rw [flink, flink, hp q (mem_of_mem_dropLast hq)]
      · rw [blink, blink, hp q (mem_of_mem_tail hq)]

-- Where the links of the first node lead.
theorem IsRing.flink_head (h : IsRing m (p :: l)) : flink m p = (l ++ [p]).head? := by
  have hchain := (isRing_cons.mp h).2
  cases l with
  | nil => exact (isRing_singleton.mp h).1
  | cons q l =>
      rw [List.cons_append, isChain_cons_cons] at hchain
      exact hchain.1.1

theorem IsRing.blink_head (h : IsRing m (p :: l)) : blink m p = (p :: l).getLast? := by
  have hchain := (isRing_cons.mp h).2
  rw [← List.cons_append, isChain_append] at hchain
  obtain ⟨z, hz⟩ : ∃ z, (p :: l).getLast? = some z := ⟨_, List.getLast?_eq_some_getLast (by simp)⟩
  rw [hz]
  exact (hchain.2.2 z hz p rfl).2

-- Every node of a ring is there.
theorem IsRing.isSome {nodes : List π} (h : IsRing m nodes) (hp : p ∈ nodes) : (m p).isSome = true := by
  obtain ⟨front, back, rfl⟩ := List.append_of_mem hp
  have hfirst := h.turn.flink_head
  cases hm : m p with
  | none => simp [flink, hm] at hfirst
  | some e => rfl

section Operations

variable [DecidableEq π]

-- A write succeeds where there is a node, and changes nothing else.
theorem exists_write (hp : (m p).isSome = true) (f : Entry π → Entry π) : ∃ m' e, m p = some e ∧
    write m p f = some m' ∧ flink m' = update (flink m) p (some (f e).flink) ∧
    blink m' = update (blink m) p (some (f e).blink) ∧ ∀ r, r ≠ p → m' r = m r := by
  obtain ⟨e, he⟩ := Option.isSome_iff_exists.mp hp
  refine ⟨update m p (some (f e)), e, he, by rw [write, he]; rfl, ?_, ?_, fun r hr => update_of_ne hr _ _⟩
  · funext r
    by_cases hr : r = p
    · subst hr
      simp [flink]
    · simp [flink, update_of_ne hr]
  · funext r
    by_cases hr : r = p
    · subst hr
      simp [blink]
    · simp [blink, update_of_ne hr]

theorem exists_setFlink (hp : (m p).isSome = true) (q : π) : ∃ m', setFlink m p q = some m' ∧
    flink m' = update (flink m) p (some q) ∧ blink m' = blink m ∧ ∀ r, r ≠ p → m' r = m r := by
  obtain ⟨m', e, he, hm', hf, hb, hframe⟩ := exists_write hp fun e => { e with flink := q }
  have hsame : blink m p = some e.blink := by rw [blink, he]; rfl
  exact ⟨m', hm', hf, by rw [hb, update_eq_self_iff]; exact hsame.symm, hframe⟩

theorem exists_setBlink (hp : (m p).isSome = true) (q : π) : ∃ m', setBlink m p q = some m' ∧
    flink m' = flink m ∧ blink m' = update (blink m) p (some q) ∧ ∀ r, r ≠ p → m' r = m r := by
  obtain ⟨m', e, he, hm', hf, hb, hframe⟩ := exists_write hp fun e => { e with blink := q }
  have hsame : flink m p = some e.flink := by rw [flink, he]; rfl
  exact ⟨m', hm', by rw [hf, update_eq_self_iff]; exact hsame.symm, hb, hframe⟩

-- A write does not take a node away.
theorem isSome_of_update {r : π} (h : flink m' = update (flink m) p (some q)) (hr : (m r).isSome = true) :
    (m' r).isSome = true := by
  have hlink : ∀ m : Memory π, (m r).isSome = (flink m r).isSome := fun m => by simp [flink]
  rw [hlink, h, update_apply]
  split
  · rfl
  · rwa [← hlink]

theorem exists_insertHeadList {next : π} (hnext : flink m head = some next) (hx : (m x).isSome = true)
    (hhead : (m head).isSome = true) (hn : (m next).isSome = true) : ∃ m', insertHeadList m head x = some m' ∧
    flink m' = update (update (flink m) x (some next)) head (some x) ∧
    blink m' = update (update (blink m) x (some head)) next (some x) ∧
    ∀ r, r ≠ x → r ≠ next → r ≠ head → m' r = m r := by
  obtain ⟨m₁, _, _, h₁, hf₁, hb₁, hframe₁⟩ := exists_write hx fun _ => { flink := next, blink := head }
  obtain ⟨m₂, h₂, hf₂, hb₂, hframe₂⟩ := exists_setBlink (isSome_of_update hf₁ hn) x
  have hhead₂ : (m₂ head).isSome = true := by
    apply isSome_of_update (hf₂.trans hf₁) hhead
  obtain ⟨m₃, h₃, hf₃, hb₃, hframe₃⟩ := exists_setFlink hhead₂ x
  refine ⟨m₃, ?_, by rw [hf₃, hf₂, hf₁], by rw [hb₃, hb₂, hb₁], fun r hrx hrn hrh => ?_⟩
  · rw [insertHeadList, hnext]
    simp only [Option.bind_eq_bind, Option.bind_some, h₁, h₂, h₃]
  · rw [hframe₃ r hrh, hframe₂ r hrn, hframe₁ r hrx]

-- At the tail of `head` is behind the node before it.
theorem exists_insertTailList {prev : π} (hprev : blink m head = some prev) (hx : (m x).isSome = true)
    (hhead : (m head).isSome = true) (hp : (m prev).isSome = true) : ∃ m', insertTailList m head x = some m' ∧
    flink m' = update (update (flink m) x (some head)) prev (some x) ∧
    blink m' = update (update (blink m) x (some prev)) head (some x) ∧
    ∀ r, r ≠ x → r ≠ head → r ≠ prev → m' r = m r := by
  obtain ⟨m₁, _, _, h₁, hf₁, hb₁, hframe₁⟩ := exists_write hx fun _ => { flink := head, blink := prev }
  obtain ⟨m₂, h₂, hf₂, hb₂, hframe₂⟩ := exists_setFlink (isSome_of_update hf₁ hp) x
  have hhead₂ : (m₂ head).isSome = true := by
    apply isSome_of_update hf₂
    exact isSome_of_update hf₁ hhead
  obtain ⟨m₃, h₃, hf₃, hb₃, hframe₃⟩ := exists_setBlink hhead₂ x
  refine ⟨m₃, ?_, by rw [hf₃, hf₂, hf₁], by rw [hb₃, hb₂, hb₁], fun r hrx hrh hrp => ?_⟩
  · rw [insertTailList, hprev]
    simp only [Option.bind_eq_bind, Option.bind_some, h₁, h₂, h₃]
  · rw [hframe₃ r hrh, hframe₂ r hrp, hframe₁ r hrx]

theorem exists_removeEntryList {prev next : π} (hnext : flink m x = some next) (hprev : blink m x = some prev)
    (hp : (m prev).isSome = true) (hn : (m next).isSome = true) : ∃ m', removeEntryList m x = some m' ∧
    flink m' = update (flink m) prev (some next) ∧ blink m' = update (blink m) next (some prev) ∧
    ∀ r, r ≠ prev → r ≠ next → m' r = m r := by
  obtain ⟨e, he, rfl⟩ := Option.map_eq_some_iff.mp hnext
  obtain rfl : e.blink = prev := by simpa [blink, he] using hprev
  obtain ⟨m₁, h₁, hf₁, hb₁, hframe₁⟩ := exists_setFlink hp e.flink
  obtain ⟨m₂, h₂, hf₂, hb₂, hframe₂⟩ := exists_setBlink (isSome_of_update hf₁ hn) e.blink
  refine ⟨m₂, ?_, by rw [hf₂, hf₁], by rw [hb₂, hb₁], fun r hrp hrn => ?_⟩
  · rw [removeEntryList, he]
    simp only [Option.bind_eq_bind, Option.bind_some, h₁, h₂]
  · rw [hframe₂ r hrn, hframe₁ r hrp]

end Operations

-- A node that is linked in behind the first one.
theorem IsRing.insert [DecidableEq π] {next : π} (h : IsRing m (p :: l)) (hx : x ∉ p :: l)
    (hnext : flink m p = some next) (hf : flink m' = update (update (flink m) x (some next)) p (some x))
    (hb : blink m' = update (update (blink m) x (some p)) next (some x)) : IsRing m' (p :: x :: l) := by
  have hxp : x ≠ p := ne_of_not_mem_cons hx
  obtain ⟨rest, hrest⟩ : ∃ rest, l ++ [p] = next :: rest := by
    have hhead := h.flink_head
    rw [hnext] at hhead
    cases hc : l ++ [p] with
    | nil => simp at hc
    | cons q rest =>
        rw [hc] at hhead
        cases hhead
        exact ⟨rest, rfl⟩
  have hnodup : (next :: rest).Nodup := by
    rw [← hrest]
    exact List.nodup_append_comm.mp h.nodup
  have hxn : x ≠ next ∧ x ∉ rest := by
    have hxl : x ∉ next :: rest := by
      rw [← hrest]
      simpa [or_comm] using hx
    simpa using hxl
  obtain ⟨hpn, hchain⟩ := isRing_cons.mp h
  rw [hrest] at hchain
  refine isRing_cons.mpr ⟨?_, ?_⟩
  · simp only [nodup_cons, mem_cons, not_or] at hpn hx ⊢
    exact ⟨⟨hxp.symm, hpn.1⟩, hx.2, hpn.2⟩
  · rw [List.cons_append, hrest, isChain_cons_cons, isChain_cons_cons]
    refine ⟨⟨?_, ?_⟩, ⟨?_, ?_⟩, isChain_congr (isChain_cons_cons.mp hchain).2 (fun q hq => ?_) (fun q hq => ?_)⟩
    · rw [hf, update_self]
    · rw [hb, update_of_ne hxn.1, update_self]
    · rw [hf, update_of_ne hxp, update_self]
    · rw [hb, update_self]
    · have hql : q ∈ l := by rwa [← hrest, dropLast_concat] at hq
      have hqp : q ≠ p := fun heq => (nodup_cons.mp hpn).1 (heq ▸ hql)
      have hqx : q ≠ x := fun heq => hx (heq ▸ mem_cons_of_mem _ hql)
      rw [hf, update_of_ne hqp, update_of_ne hqx]
    · have hqn : q ≠ next := fun heq => (nodup_cons.mp hnodup).1 (heq ▸ hq)
      have hqx : q ≠ x := fun heq => hxn.2 (heq ▸ hq)
      rw [hb, update_of_ne hqn, update_of_ne hqx]

-- The first node is left out.
theorem IsRing.remove [DecidableEq π] {next prev : π} (h : IsRing m (x :: l)) (hl : l ≠ []) (hnext : flink m x = some next)
    (hprev : blink m x = some prev) (hf : flink m' = update (flink m) prev (some next))
    (hb : blink m' = update (blink m) next (some prev)) : IsRing m' l := by
  obtain ⟨rest, rfl⟩ : ∃ rest, l = next :: rest := by
    have hhead := h.flink_head
    rw [hnext] at hhead
    cases l with
    | nil => exact absurd rfl hl
    | cons q rest =>
        cases hhead
        exact ⟨rest, rfl⟩
  have hlast : (next :: rest).getLast? = some prev := by
    rw [← hprev, h.blink_head]
    rfl
  obtain ⟨hnodup, hchain⟩ := isRing_cons.mp h
  have hnext' := (nodup_cons.mp hnodup).2
  rw [List.cons_append, isChain_cons_cons] at hchain
  have hchain' := hchain.2
  rw [← List.cons_append, isChain_append] at hchain'
  refine isRing_cons.mpr ⟨hnext', ?_⟩
  rw [← List.cons_append, isChain_append]
  refine ⟨isChain_congr hchain'.1 (fun q hq => ?_) (fun q hq => ?_), .singleton _, fun q hq r hr => ?_⟩
  · have hqp : q ≠ prev := by
      rintro rfl
      have hsplit := dropLast_append_getLast? q hlast
      rw [← hsplit] at hnext'
      exact (nodup_append.mp hnext').2.2 q hq q (by simp) rfl
    rw [hf, update_of_ne hqp]
  · have hqn : q ≠ next := fun heq => (nodup_cons.mp hnext').1 (heq ▸ hq)
    rw [hb, update_of_ne hqn]
  · rw [hlast] at hq
    cases hq
    cases hr
    exact ⟨by rw [hf, update_self], by rw [hb, update_self]⟩

section Operations

variable [DecidableEq π]

theorem IsRing.initialize (hx : (m x).isSome = true) :
    ∃ m', initializeListHead m x = some m' ∧ IsRing m' [x] ∧ ∀ r, r ≠ x → m' r = m r := by
  obtain ⟨m', _, _, h, hf, hb, hframe⟩ := exists_write hx fun _ => { flink := x, blink := x }
  refine ⟨m', h, isRing_singleton.mpr ⟨?_, ?_⟩, hframe⟩
  · rw [hf, update_self]
  · rw [hb, update_self]

theorem IsRing.insertHead (h : IsRing m (head :: l)) (hx : x ∉ head :: l) (hlive : (m x).isSome = true) :
    ∃ m', insertHeadList m head x = some m' ∧ IsRing m' (head :: x :: l) ∧
      ∀ r, r ∉ head :: x :: l → m' r = m r := by
  obtain ⟨next, hnext, hmem⟩ : ∃ next, flink m head = some next ∧ next ∈ head :: l := by
    rw [h.flink_head]
    cases l with
    | nil => exact ⟨head, rfl, mem_cons_self⟩
    | cons q l => exact ⟨q, rfl, by simp⟩
  obtain ⟨m', hm', hf, hb, hframe⟩ := exists_insertHeadList hnext hlive (h.isSome mem_cons_self) (h.isSome hmem)
  refine ⟨m', hm', h.insert hx hnext hf hb, fun r hr => ?_⟩
  have hne : ∀ q ∈ head :: x :: l, r ≠ q := fun q hq heq => hr (heq ▸ hq)
  refine hframe r (hne x (by simp)) (hne next ?_) (hne head (by simp))
  simp only [mem_cons] at hmem ⊢
  tauto

theorem IsRing.insertTail (h : IsRing m (head :: l)) (hx : x ∉ head :: l) (hlive : (m x).isSome = true) :
    ∃ m', insertTailList m head x = some m' ∧ IsRing m' (head :: (l ++ [x])) ∧
      ∀ r, r ∉ head :: (l ++ [x]) → m' r = m r := by
  -- the ring from its last node on
  obtain ⟨front, prev, hsplit⟩ : ∃ front prev, head :: l = front ++ [prev] :=
    ⟨_, _, (dropLast_append_getLast (cons_ne_nil head l)).symm⟩
  have hturned : IsRing m (prev :: front) := by
    rw [hsplit] at h
    exact h.turn
  have hprev : blink m head = some prev := by
    rw [h.blink_head, hsplit, getLast?_concat]
  have hmem : prev ∈ head :: l := by simp [hsplit]
  have hnext : flink m prev = some head := by
    rw [hturned.flink_head, ← hsplit]
    rfl
  obtain ⟨m', hm', hf, hb, hframe⟩ := exists_insertTailList hprev hlive (h.isSome mem_cons_self) (h.isSome hmem)
  have hxt : x ∉ prev :: front := by
    rw [hsplit] at hx
    simpa [or_comm] using hx
  have hring := hturned.insert hxt hnext hf hb
  refine ⟨m', hm', ?_, fun r hr => ?_⟩
  · rw [← List.cons_append, hsplit, List.append_assoc]
    have hringed : IsRing m' ([prev, x] ++ front) := hring
    exact hringed.turn
  · have hne : ∀ q ∈ head :: (l ++ [x]), r ≠ q := fun q hq heq => hr (heq ▸ hq)
    refine hframe r (hne x (by simp)) (hne head (by simp)) (hne prev ?_)
    rw [← List.cons_append]
    exact mem_append_left _ hmem

-- The node that is removed keeps its links.
theorem IsRing.removeEntry {front back : List π} (h : IsRing m (front ++ x :: back)) (hrest : front ++ back ≠ []) :
    ∃ m', removeEntryList m x = some m' ∧ IsRing m' (front ++ back) ∧ ∀ r, r ∉ front ++ back → m' r = m r := by
  have hturned := h.turn
  rw [List.cons_append] at hturned
  have hl : back ++ front ≠ [] := by simpa [and_comm] using hrest
  obtain ⟨next, hnext, hnmem⟩ : ∃ next, flink m x = some next ∧ next ∈ back ++ front := by
    rw [hturned.flink_head]
    cases hc : back ++ front with
    | nil => exact absurd hc hl
    | cons q l => exact ⟨q, rfl, mem_cons_self⟩
  obtain ⟨prev, hprev, hpmem⟩ : ∃ prev, blink m x = some prev ∧ prev ∈ back ++ front := by
    rw [hturned.blink_head, getLast?_cons_of_ne_nil hl]
    exact ⟨_, getLast?_eq_some_getLast hl, getLast_mem hl⟩
  have hlive : ∀ q ∈ back ++ front, (m q).isSome = true := fun q hq => hturned.isSome (mem_cons_of_mem _ hq)
  obtain ⟨m', hm', hf, hb, hframe⟩ := exists_removeEntryList hnext hprev (hlive _ hpmem) (hlive _ hnmem)
  refine ⟨m', hm', (hturned.remove hl hnext hprev hf hb).turn, fun r hr => ?_⟩
  have hne : ∀ q ∈ back ++ front, r ≠ q := fun q hq heq => hr (by simpa [or_comm, heq] using hq)
  exact hframe r (hne prev hpmem) (hne next hnmem)

-- A node that is alone can be removed as well.
theorem IsRing.removeEntry_singleton (h : IsRing m [x]) : removeEntryList m x = some m := by
  obtain ⟨hf, hb⟩ := isRing_singleton.mp h
  obtain ⟨⟨flink, blink⟩, he, rfl⟩ := Option.map_eq_some_iff.mp hf
  obtain rfl : blink = flink := by simpa [Ring.blink, he] using hb
  have hsame : update m blink (some { flink := blink, blink := blink }) = m := by
    rw [update_eq_self_iff, he]
  simp [Ring.removeEntryList, he, setFlink, setBlink, write, hsame]

end Operations

-- The links of a node behind the head.
theorem IsRing.flink_entry {front back : List π} (h : IsRing m (head :: (front ++ p :: back))) :
    flink m p = (back ++ [head]).head? := by
  rw [← List.cons_append] at h
  have hfirst := h.turn.flink_head
  rw [hfirst]
  cases back with
  | nil => rfl
  | cons q back => rfl

-- The loop finds what a search in the list does.
theorem IsRing.findFrom_eq [DecidableEq π] {front back : List π} (h : IsRing m (head :: (front ++ back))) (found : π → Bool)
    {fuel : Nat} (hfuel : back.length < fuel) (hentry : (back ++ [head]).head? = some entry) :
    findFrom m found head fuel entry = some (back.find? found) := by
  induction back generalizing front fuel entry with
  | nil =>
      cases hentry
      obtain ⟨fuel, rfl⟩ : ∃ n, fuel = n + 1 := ⟨fuel - 1, by simp at hfuel; omega⟩
      simp [findFrom]
  | cons q back ih =>
      cases hentry
      obtain ⟨fuel, rfl⟩ : ∃ n, fuel = n + 1 := ⟨fuel - 1, by simp at hfuel; omega⟩
      have hqh : q ≠ head := by
        rintro rfl
        exact (nodup_cons.mp h.nodup).1 (by simp)
      rw [findFrom, if_neg hqh]
      cases hq : found q with
      | true => simp [hq]
      | false =>
          have hlink := h.flink_entry
          obtain ⟨next, hnext⟩ : ∃ next, (back ++ [head]).head? = some next := by
            cases back with
            | nil => exact ⟨head, rfl⟩
            | cons r back => exact ⟨r, rfl⟩
          rw [hnext] at hlink
          rw [hlink, find?_cons_of_neg (by simp [hq])]
          have hnode : IsRing m (head :: ((front ++ [q]) ++ back)) := by simpa using h
          exact ih hnode (by simpa using hfuel) hnext

-- A memory that holds these rings and nothing else. A ring without nodes counts for nothing.
structure Partition (m : Memory π) (rings : List (List π)) : Prop where
  nodup : rings.flatten.Nodup
  ring : ∀ ring ∈ rings, IsRing m ring
  node_iff : ∀ p, (m p).isSome = true ↔ p ∈ rings.flatten

namespace Partition

variable {rings rings' rest : List (List π)} {ring front back : List π}

theorem empty : Partition (fun _ : π => none) [] :=
  ⟨nodup_nil, fun _ h => (not_mem_nil h).elim, fun _ => by simp⟩

theorem perm (h : Partition m rings) (hp : rings.Perm rings') : Partition m rings' :=
  ⟨hp.flatten.nodup_iff.mp h.nodup, fun ring hring => h.ring ring (hp.mem_iff.mpr hring),
    fun p => (h.node_iff p).trans hp.flatten.mem_iff⟩

-- Some rings are taken apart and their nodes linked up to others.
theorem rearrange (touched made : List (List π)) (h : Partition m (touched ++ rest))
    (hring : ∀ ring ∈ made, IsRing m' ring) (hperm : made.flatten.Perm touched.flatten)
    (hframe : ∀ p, p ∉ touched.flatten → m' p = m p) : Partition m' (made ++ rest) := by
  have hflat : (made ++ rest).flatten.Perm (touched ++ rest).flatten := by
    rw [flatten_append, flatten_append]
    exact hperm.append_right _
  have hapart : ∀ p ∈ rest.flatten, p ∉ touched.flatten := by
    intro p hp hpt
    have hnodup := h.nodup
    rw [flatten_append] at hnodup
    exact (nodup_append.mp hnodup).2.2 p hpt p hp rfl
  refine ⟨hflat.nodup_iff.mpr h.nodup, fun ring hmem => ?_, fun p => ?_⟩
  · cases mem_append.mp hmem with
    | inl hmade => exact hring ring hmade
    | inr hrest =>
        refine (h.ring ring (mem_append_right _ hrest)).congr fun p hp => ?_
        exact hframe p (hapart p (mem_flatten_of_mem hrest hp))
  · rw [hflat.mem_iff, ← h.node_iff p]
    by_cases hp : p ∈ touched.flatten
    · obtain ⟨ring, hmade, hpr⟩ := mem_flatten.mp (hperm.mem_iff.mpr hp)
      rw [(hring ring hmade).isSome hpr]
      simp only [true_iff]
      rw [h.node_iff p, flatten_append]
      exact mem_append_left _ hp
    · rw [hframe p hp]

variable [DecidableEq π]

-- A new node, whatever there is in its memory.
theorem create (h : Partition m rings) (hx : m x = none) (e : Entry π) :
    ∃ m', initializeListHead (update m x (some e)) x = some m' ∧ Partition m' ([x] :: rings) := by
  obtain ⟨m', hm', hring, hframe⟩ := IsRing.initialize (m := update m x (some e)) (x := x) (by simp)
  have hframe' : ∀ p, p ≠ x → m' p = m p := fun p hp => (hframe p hp).trans (update_of_ne hp _ _)
  have hfree : x ∉ rings.flatten := by
    rw [← h.node_iff x, hx]
    simp
  refine ⟨m', hm', ?_, ?_, fun p => ?_⟩
  · rw [flatten_cons]
    exact nodup_cons.mpr ⟨hfree, h.nodup⟩
  · rintro other (_ | ⟨_, hother⟩)
    · exact hring
    · refine (h.ring other hother).congr fun p hp => hframe' p ?_
      rintro rfl
      exact hfree (mem_flatten_of_mem hother hp)
  · by_cases hp : p = x
    · subst hp
      simp [hring.isSome mem_cons_self]
    · rw [hframe' p hp, h.node_iff p]
      simp [hp]

-- A node on its own joins another ring, next to its head.
theorem insertHead (h : Partition m ([x] :: (head :: l) :: rest)) :
    ∃ m', insertHeadList m head x = some m' ∧ Partition m' ((head :: x :: l) :: rest) := by
  have hx : x ∉ head :: l := by
    have hnodup := h.nodup
    simp only [flatten_cons, singleton_append, nodup_cons, mem_append, not_or] at hnodup
    exact hnodup.1.1
  have hlive := (h.ring [x] mem_cons_self).isSome mem_cons_self
  have hhead := h.ring (head :: l) (mem_cons_of_mem _ mem_cons_self)
  obtain ⟨m', hm', hring, hframe⟩ := hhead.insertHead hx hlive
  refine ⟨m', hm', rearrange [[x], head :: l] [head :: x :: l] h ?_ ?_ ?_⟩
  · rintro ring (_ | ⟨_, _ | _⟩)
    exact hring
  · simpa using Perm.swap x head l
  · intro p hp
    apply hframe p
    simpa [or_left_comm] using hp

-- A node leaves its ring and is on its own then.
theorem removeEntry (h : Partition m ((front ++ x :: back) :: rest)) :
    ∃ m₁ m', removeEntryList m x = some m₁ ∧ initializeListHead m₁ x = some m' ∧
      Partition m' ([x] :: (front ++ back) :: rest) := by
  have hring := h.ring _ mem_cons_self
  obtain ⟨m₁, hm₁, hring₁, hframe₁⟩ : ∃ m₁, removeEntryList m x = some m₁ ∧ IsRing m₁ (front ++ back) ∧
      ∀ r, r ∉ front ++ back → m₁ r = m r := by
    by_cases hrest : front ++ back = []
    · obtain ⟨rfl, rfl⟩ := append_eq_nil_iff.mp hrest
      exact ⟨m, IsRing.removeEntry_singleton hring, ⟨nodup_nil, Cycle.Chain.nil _⟩, fun _ _ => rfl⟩
    · exact hring.removeEntry hrest
  have hx : x ∉ front ++ back := (nodup_middle.mp hring.nodup |> nodup_cons.mp).1
  have hlive : (m₁ x).isSome = true := by
    rw [hframe₁ x hx]
    exact hring.isSome (by simp)
  obtain ⟨m', hm', hself, hframe⟩ := IsRing.initialize hlive
  refine ⟨m₁, m', hm₁, hm', rearrange [front ++ x :: back] [[x], front ++ back] h ?_ ?_ ?_⟩
  · rintro ring (_ | ⟨_, _ | ⟨_, _ | _⟩⟩)
    · exact hself
    · refine hring₁.congr fun p hp => hframe p ?_
      rintro rfl
      exact hx hp
  · simpa using perm_middle.symm
  · intro p hp
    have hpx : p ≠ x ∧ p ∉ front ++ back := by
      simp only [flatten_cons, flatten_nil, append_nil, mem_append, mem_cons, not_or] at hp ⊢
      tauto
    rw [hframe p hpx.1, hframe₁ p hpx.2]

-- A node on its own is deleted.
theorem delete (h : Partition m ([x] :: rest)) : Partition (update m x none) rest := by
  have hnodup := h.nodup
  rw [flatten_cons, singleton_append, nodup_cons] at hnodup
  refine ⟨hnodup.2, fun ring hring => ?_, fun p => ?_⟩
  · refine (h.ring ring (mem_cons_of_mem _ hring)).congr fun p hp => update_of_ne ?_ _ _
    rintro rfl
    exact hnodup.1 (mem_flatten_of_mem hring hp)
  · by_cases hp : p = x
    · subst hp
      simp [hnodup.1]
    · rw [update_of_ne hp, h.node_iff p]
      simp [hp]

end Partition

end Usbip.Library.Ring
