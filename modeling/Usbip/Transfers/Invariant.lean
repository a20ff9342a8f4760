import Mathlib.Data.List.Nodup
import Usbip.RequestList.Theorems
import Usbip.Transfers

namespace Usbip.Device

open Usbip.Library.Pool
open Usbip.Library.Runs

-- The tasks that will complete the request, among them those that took it out of the list.
def Task.owns (r : Handle) : Task → Bool
  | .cancelRequest h | .unlink _ h | .sendUnlink _ h _ | .complete _ h => h == r
  | _ => false

def Task.holds (r : Handle) : Task → Bool
  | .unlink _ h | .sendUnlink _ h _ | .complete _ h => h == r
  | _ => false

-- The contexts of CMD_SUBMIT with this sequence number.
def Task.carries (s : Seqnum) : Task → Bool
  | .drawn n | .sendSubmit _ n | .sent _ n | .refused _ n => n == s
  | _ => false

def Task.IsContext (r : Handle) (s : Seqnum) (t : Task) : Prop :=
  t = .sendSubmit r s ∨ t = .sent r s ∨ t = .refused r s

def owners (st : State) (r : Handle) : Nat := st.tasks.countP (Task.owns r)

def Request.Outstanding (req : Request) : Prop := req.deliveries ≠ 0 ∧ req.completed = 0

instance (req : Request) : Decidable req.Outstanding :=
  inferInstanceAs (Decidable (req.deliveries ≠ 0 ∧ req.completed = 0))

-- How many tasks have to complete the request. An entry of the list has none, save the cancel
-- callback that fired and has yet to run.
def State.owed (st : State) (r : Handle) : Nat :=
  if r ∈ st.dev.entries then (if (st.dev.request r).cancellation = .fired then 1 else 0)
  else if (st.dev.request r).Outstanding then 1 else 0

structure Inv (st : State) : Prop where
  nodup : st.dev.entries.Nodup
  listed : ∀ r ∈ st.dev.entries, (st.dev.request r).Outstanding
  once : ∀ r, (st.dev.request r).completed ≤ 1
  owned : ∀ r, owners st r = st.owed r
  held : ∀ r, ∀ t ∈ st.tasks, t.holds r = true → r ∉ st.dev.entries
  fired : ∀ r, .cancelRequest r ∈ st.tasks → (st.dev.request r).cancellation = .fired
  armed : ∀ r, (st.dev.request r).Outstanding → (st.dev.request r).cancellation = .armed → r ∈ st.dev.entries
  flag : ∀ r ∈ st.dev.entries, (st.dev.request r).cancelable = true ↔
    (st.dev.request r).cancellation = .armed ∨ (st.dev.request r).cancellation = .fired
  unique : ∀ r ∈ st.dev.entries, ∀ h ∈ st.dev.entries,
    (st.dev.request r).seqnum = (st.dev.request h).seqnum → r = h
  context : ∀ r s, ∀ t ∈ st.tasks, t.IsContext r s → ∀ h ∈ st.dev.entries,
    (st.dev.request h).seqnum = s → h = r ∧ (st.dev.request h).cancelable = false
  contextOnce : ∀ s, st.tasks.countP (Task.carries s) ≤ 1
  drawn : ∀ s, .drawn s ∈ st.tasks → ∀ r, (st.dev.request r).Outstanding → (st.dev.request r).seqnum ≠ s

theorem Task.owns_of_holds {r : Handle} {t : Task} (h : t.holds r = true) : t.owns r = true := by
  cases t <;> simp_all [Task.holds, Task.owns]

theorem Task.IsContext.carries {r : Handle} {s : Seqnum} {t : Task} (h : t.IsContext r s) :
    t.carries s = true := by
  rcases h with rfl | rfl | rfl <;> simp [Task.carries]

theorem inv_init {st : State} (h : machine.init st) : Inv st := by
  obtain ⟨counter, rfl⟩ := h
  constructor <;> simp [owners, State.owed, Request.Outstanding]

-- An owner of the request is in the pool when one is owed.
theorem Inv.outstanding_of_owner {st : State} (hi : Inv st) {r : Handle} {t : Task} (ht : t ∈ st.tasks)
    (ho : t.owns r = true) : (st.dev.request r).Outstanding := by
  have hpos : 0 < owners st r := List.countP_pos_iff.mpr ⟨t, ht, ho⟩
  rw [hi.owned r, State.owed] at hpos
  by_cases hm : r ∈ st.dev.entries
  · exact hi.listed r hm
  · rw [if_neg hm] at hpos
    by_contra hn
    simp [hn] at hpos

-- A step that only moves tasks on, each to one that does the same job.
theorem Inv.of_tasks {st st' : State} (hi : Inv st) (hdev : st'.dev = st.dev)
    (howners : ∀ r, owners st' r = owners st r)
    (hheld : ∀ r, ∀ t ∈ st'.tasks, t.holds r = true → ∃ u ∈ st.tasks, u.holds r = true)
    (hfired : ∀ r, .cancelRequest r ∈ st'.tasks → .cancelRequest r ∈ st.tasks)
    (hcontext : ∀ r s, ∀ t ∈ st'.tasks, t.IsContext r s → ∃ u ∈ st.tasks, u.IsContext r s)
    (honce : ∀ s, st'.tasks.countP (Task.carries s) ≤ st.tasks.countP (Task.carries s))
    (hdrawn : ∀ s, .drawn s ∈ st'.tasks → .drawn s ∈ st.tasks) : Inv st' := by
  constructor
  case nodup => exact hdev ▸ hi.nodup
  case listed => exact hdev ▸ hi.listed
  case once => exact hdev ▸ hi.once
  case owned =>
    intro r
    rw [howners r, hi.owned r, State.owed, State.owed, hdev]
  case held =>
    intro r t ht hh
    obtain ⟨u, hu, hh⟩ := hheld r t ht hh
    rw [hdev]
    exact hi.held r u hu hh
  case fired =>
    intro r hr
    rw [hdev]
    exact hi.fired r (hfired r hr)
  case armed => exact hdev ▸ hi.armed
  case flag => exact hdev ▸ hi.flag
  case unique => exact hdev ▸ hi.unique
  case context =>
    intro r s t ht hc
    obtain ⟨u, hu, hc⟩ := hcontext r s t ht hc
    rw [hdev]
    exact hi.context r s u hu hc
  case contextOnce =>
    intro s
    exact Nat.le_trans (honce s) (hi.contextOnce s)
  case drawn =>
    intro s ht
    rw [hdev]
    exact hi.drawn s (hdrawn s ht)

theorem Removal.outstanding_iff {dev left : RequestList} {crit : RequestSearch} {unmarks : Bool}
    {picked : Option Handle} (h : Removal dev crit unmarks left picked) (r : Handle) :
    (left.request r).Outstanding ↔ (dev.request r).Outstanding := by
  rw [Request.Outstanding, Request.Outstanding, h.deliveries_eq, h.completed_eq]

-- A step that takes a request out of the list: whoever has it now is its only owner.
theorem Inv.of_removal {st st' : State} (hi : Inv st) {crit : RequestSearch} {unmarks : Bool}
    {picked : Option Handle} (hrem : Removal st.dev crit unmarks st'.dev picked)
    (hquiet : ∀ r, picked = some r → (st'.dev.request r).cancellation ≠ .armed)
    (howners : ∀ r, picked ≠ some r → owners st' r = owners st r)
    (hpicked : ∀ r, picked = some r → owners st' r = 1)
    (hheld : ∀ r, ∀ t ∈ st'.tasks, t.holds r = true →
      (∃ u ∈ st.tasks, u.holds r = true) ∨ r ∉ st'.dev.entries)
    (hfired : ∀ r, .cancelRequest r ∈ st'.tasks → .cancelRequest r ∈ st.tasks ∧ (picked = some r → unmarks = false))
    (hcontext : ∀ r s, ∀ t ∈ st'.tasks, t.IsContext r s → ∃ u ∈ st.tasks, u.IsContext r s)
    (honce : ∀ s, st'.tasks.countP (Task.carries s) ≤ st.tasks.countP (Task.carries s))
    (hdrawn : ∀ s, .drawn s ∈ st'.tasks → .drawn s ∈ st.tasks) : Inv st' := by
  constructor
  case nodup => exact hrem.sublist.nodup hi.nodup
  case listed =>
    intro r hr
    exact (hrem.outstanding_iff r).mpr (hi.listed r (hrem.mem hr))
  case once =>
    intro r
    rw [hrem.completed_eq]
    exact hi.once r
  case owned =>
    intro r
    unfold State.owed
    by_cases hp : picked = some r
    · rw [hpicked r hp, if_neg (hrem.picked_mem r hp).2,
        if_pos ((hrem.outstanding_iff r).mpr (hi.listed r (hrem.picked_mem r hp).1))]
    · rw [howners r hp, hi.owned r, State.owed, hrem.request_ne r hp]
      by_cases hl : r ∈ st'.dev.entries
      · rw [if_pos hl, if_pos (hrem.mem hl)]
      · rw [if_neg hl]
        by_cases hm : r ∈ st.dev.entries
        · -- the cancel callback owns it already
          obtain ⟨_, hw, _⟩ := (hrem.gone r hm hl).resolve_left hp
          rw [if_pos hm, if_pos hw.2, if_pos (hi.listed r hm)]
        · rw [if_neg hm]
  case held =>
    intro r t ht hh hm
    rcases hheld r t ht hh with ⟨u, hu, hh⟩ | hout
    · exact hi.held r u hu hh (hrem.mem hm)
    · exact hout hm
  case fired =>
    intro r hr
    obtain ⟨hr, hp⟩ := hfired r hr
    by_cases hpick : picked = some r
    · rw [hrem.request_picked r hpick, hp hpick]
      exact hi.fired r hr
    · rw [hrem.request_ne r hpick]
      exact hi.fired r hr
  case armed =>
    intro r ho ha
    by_cases hp : picked = some r
    · exact absurd ha (hquiet r hp)
    · rw [hrem.request_ne r hp] at ha
      have hm := hi.armed r ((hrem.outstanding_iff r).mp ho) ha
      by_contra hl
      obtain ⟨_, hw, _⟩ := (hrem.gone r hm hl).resolve_left hp
      rw [hw.2] at ha
      cases ha
  case flag =>
    intro r hr
    rw [hrem.request_of_mem hr]
    exact hi.flag r (hrem.mem hr)
  case unique =>
    intro r hr h hh he
    rw [hrem.seqnum_eq, hrem.seqnum_eq] at he
    exact hi.unique r (hrem.mem hr) h (hrem.mem hh) he
  case context =>
    intro r s t ht hc h hm hs
    obtain ⟨u, hu, hc⟩ := hcontext r s t ht hc
    rw [hrem.request_of_mem hm] at hs ⊢
    exact hi.context r s u hu hc h (hrem.mem hm) hs
  case contextOnce =>
    intro s
    exact Nat.le_trans (honce s) (hi.contextOnce s)
  case drawn =>
    intro s ht r ho
    rw [hrem.seqnum_eq]
    exact hi.drawn s (hdrawn s ht) r ((hrem.outstanding_iff r).mp ho)

-- A step that changes one request and leaves the list as it is.
theorem Inv.of_set {st st' : State} (hi : Inv st) (r : Handle) (req : Request)
    (hdev : st'.dev = st.dev.set r req) (hseq : req.seqnum = (st.dev.request r).seqnum)
    (hlisted : r ∈ st.dev.entries → req.Outstanding)
    (hopen : req.Outstanding → (st.dev.request r).Outstanding) (hcompleted : req.completed ≤ 1)
    (howners : ∀ h, h ≠ r → owners st' h = owners st h)
    (howed : owners st' r = if r ∈ st.dev.entries then (if req.cancellation = .fired then 1 else 0)
      else if req.Outstanding then 1 else 0)
    (hheld : ∀ h, ∀ t ∈ st'.tasks, t.holds h = true → ∃ u ∈ st.tasks, u.holds h = true)
    (hfired : ∀ h, .cancelRequest h ∈ st'.tasks →
      (h = r ∧ req.cancellation = .fired) ∨ (h ≠ r ∧ .cancelRequest h ∈ st.tasks))
    (harmed : req.Outstanding → req.cancellation = .armed → r ∈ st.dev.entries)
    (hflag : r ∈ st.dev.entries →
      (req.cancelable = true ↔ req.cancellation = .armed ∨ req.cancellation = .fired))
    (hcontext : ∀ h s, ∀ t ∈ st'.tasks, t.IsContext h s → (∃ u ∈ st.tasks, u.IsContext h s) ∧
      (s = req.seqnum → r ∈ st.dev.entries → req.cancelable = (st.dev.request r).cancelable))
    (honce : ∀ s, st'.tasks.countP (Task.carries s) ≤ st.tasks.countP (Task.carries s))
    (hdrawn : ∀ s, .drawn s ∈ st'.tasks → .drawn s ∈ st.tasks) : Inv st' := by
  have hent : st'.dev.entries = st.dev.entries := by rw [hdev]; rfl
  have hself : st'.dev.request r = req := by rw [hdev]; exact RequestList.set_request_self _ _ _
  have hne : ∀ h, h ≠ r → st'.dev.request h = st.dev.request h := by
    intro h hh
    rw [hdev]
    exact RequestList.set_request_ne _ _ hh
  have hseqs : ∀ h, (st'.dev.request h).seqnum = (st.dev.request h).seqnum := by
    intro h
    by_cases hh : h = r
    · rw [hh, hself, hseq]
    · rw [hne h hh]
  constructor
  case nodup => exact hent ▸ hi.nodup
  case listed =>
    intro h hm
    rw [hent] at hm
    by_cases hh : h = r
    · rw [hh, hself]
      exact hlisted (hh ▸ hm)
    · rw [hne h hh]
      exact hi.listed h hm
  case once =>
    intro h
    by_cases hh : h = r
    · rw [hh, hself]
      exact hcompleted
    · rw [hne h hh]
      exact hi.once h
  case owned =>
    intro h
    by_cases hh : h = r
    · rw [hh, howed, State.owed, hself, hent]
    · rw [howners h hh, hi.owned h, State.owed, State.owed, hne h hh, hent]
  case held =>
    intro h t ht hhold
    obtain ⟨u, hu, hhold⟩ := hheld h t ht hhold
    rw [hent]
    exact hi.held h u hu hhold
  case fired =>
    intro h ht
    rcases hfired h ht with ⟨rfl, hf⟩ | ⟨hh, ht⟩
    · rw [hself]
      exact hf
    · rw [hne h hh]
      exact hi.fired h ht
  case armed =>
    intro h ho ha
    rw [hent]
    by_cases hh : h = r
    · subst hh
      rw [hself] at ho ha
      exact harmed ho ha
    · rw [hne h hh] at ho ha
      exact hi.armed h ho ha
  case flag =>
    intro h hm
    rw [hent] at hm
    by_cases hh : h = r
    · subst hh
      rw [hself]
      exact hflag hm
    · rw [hne h hh]
      exact hi.flag h hm
  case unique =>
    intro a ha b hb he
    rw [hent] at ha hb
    rw [hseqs, hseqs] at he
    exact hi.unique a ha b hb he
  case context =>
    intro a s t ht hc h hm hs
    obtain ⟨⟨u, hu, hcu⟩, hkeep⟩ := hcontext a s t ht hc
    rw [hent] at hm
    rw [hseqs] at hs
    obtain ⟨hha, hcan⟩ := hi.context a s u hu hcu h hm hs
    refine ⟨hha, ?_⟩
    by_cases hh : h = r
    · subst hh
      rw [hself, hkeep (by rw [hseq, hs]) hm]
      exact hcan
    · rw [hne h hh]
      exact hcan
  case contextOnce =>
    intro s
    exact Nat.le_trans (honce s) (hi.contextOnce s)
  case drawn =>
    intro s ht h ho
    rw [hseqs]
    refine hi.drawn s (hdrawn s ht) h ?_
    by_cases hh : h = r
    · subst hh
      exact hopen (hself ▸ ho)
    · exact hne h hh ▸ ho

section Steps

variable {st : State}

-- A task moves on to one with the same job.
theorem Inv.of_move (hi : Inv st) {st' : State} {t u : Task} (ht : t ∈ st.tasks) (hdev : st'.dev = st.dev)
    (htasks : st'.tasks = advance st.tasks t [u])
    (howns : ∀ r, u.owns r = t.owns r) (hholds : ∀ r, u.holds r = t.holds r)
    (hcancel : ∀ r, u ≠ .cancelRequest r) (hcontext : ∀ r s, u.IsContext r s → t.IsContext r s)
    (hcarries : ∀ s, u.carries s = t.carries s) (hdrawn : ∀ s, u ≠ .drawn s) : Inv st' := by
  refine hi.of_tasks hdev ?_ ?_ ?_ ?_ ?_ ?_
  · intro r
    have hcount := countP_advance (Task.owns r) ht [u]
    rw [List.countP_singleton, howns r, ← htasks] at hcount
    simp only [owners]
    omega
  · intro r x hx hhold
    rw [htasks] at hx
    rcases mem_advance hx with hx | hx
    · rw [List.mem_singleton.mp hx, hholds r] at hhold
      exact ⟨t, ht, hhold⟩
    · exact ⟨x, hx, hhold⟩
  · intro r hr
    rw [htasks] at hr
    rcases mem_advance hr with hx | hx
    · exact absurd (List.mem_singleton.mp hx).symm (hcancel r)
    · exact hx
  · intro r s x hx hc
    rw [htasks] at hx
    rcases mem_advance hx with hx | hx
    · rw [List.mem_singleton.mp hx] at hc
      exact ⟨t, ht, hcontext r s hc⟩
    · exact ⟨x, hx, hc⟩
  · intro s
    have hcount := countP_advance (Task.carries s) ht [u]
    rw [List.countP_singleton, hcarries s, ← htasks] at hcount
    exact Nat.le_of_eq (Nat.add_right_cancel (hcount.trans (Nat.add_comm _ _)))
  · intro s hs
    rw [htasks] at hs
    rcases mem_advance hs with hx | hx
    · exact absurd (List.mem_singleton.mp hx).symm (hdrawn s)
    · exact hx

theorem Inv.wskSend (hi : Inv st) {r : Handle} {s : Seqnum} (ht : .sendSubmit r s ∈ st.tasks) :
    Inv (if st.closing then { st with tasks := advance st.tasks (.sendSubmit r s) [.refused r s] }
      else
        { st with
          tasks := advance st.tasks (.sendSubmit r s) [.sent r s]
          wire := st.wire ++ [.submit s] }) := by
  split_ifs
  · refine hi.of_move ht rfl rfl (fun _ => rfl) (fun _ => rfl) (by simp) ?_ (fun _ => rfl) (by simp)
    rintro h n (h' | h' | h') <;> simp_all [Task.IsContext]
  · refine hi.of_move ht rfl rfl (fun _ => rfl) (fun _ => rfl) (by simp) ?_ (fun _ => rfl) (by simp)
    rintro h n (h' | h' | h') <;> simp_all [Task.IsContext]

theorem unlinking_dev (st : State) (thread : Thread) (r : Handle) (skip : Bool) :
    (unlinking st thread r skip).dev = st.dev := by
  cases skip <;> rfl

theorem Inv.unlinking (hi : Inv st) {thread : Thread} {r : Handle} (ht : .unlink thread r ∈ st.tasks)
    (skip : Bool) : Inv (unlinking st thread r skip) := by
  cases skip with
  | true =>
      refine hi.of_move ht rfl rfl (fun _ => rfl) (fun _ => rfl) (by simp) ?_ (fun _ => rfl) (by simp)
      simp [Task.IsContext]
  | false =>
      refine hi.of_move ht rfl rfl (fun _ => rfl) (fun _ => rfl) (by simp) ?_ (fun _ => rfl) (by simp)
      simp [Task.IsContext]

theorem Inv.sendUnlink (hi : Inv st) {thread : Thread} {r : Handle} {s : Seqnum}
    (ht : .sendUnlink thread r s ∈ st.tasks) (wire : List Command) :
    Inv { st with tasks := advance st.tasks (.sendUnlink thread r s) [.complete thread r], wire := wire } := by
  refine hi.of_move ht rfl rfl (fun _ => rfl) (fun _ => rfl) (by simp) ?_ (fun _ => rfl) (by simp)
  simp [Task.IsContext]

theorem Inv.endpointPurge (hi : Inv st) (e : Endpoint) :
    Inv { st with tasks := .endpointPurge e :: st.tasks } := by
  refine hi.of_tasks rfl ?_ ?_ ?_ ?_ ?_ ?_
  · intro r
    simp [owners, Task.owns]
  · intro r t ht hh
    rcases List.mem_cons.mp ht with rfl | ht
    · simp [Task.holds] at hh
    · exact ⟨t, ht, hh⟩
  · intro r hr
    simpa using hr
  · intro r s t ht hc
    rcases List.mem_cons.mp ht with rfl | ht
    · simp [Task.IsContext] at hc
    · exact ⟨t, ht, hc⟩
  · intro s
    simp [Task.carries]
  · intro s hs
    simpa using hs

-- A request taken out with its callback unmarked had no owner before.
theorem Inv.owners_picked (hi : Inv st) {crit : RequestSearch} {left : RequestList} {picked : Option Handle}
    (hrem : Removal st.dev crit true left picked) {r : Handle} (hp : picked = some r) : owners st r = 0 := by
  have hm := (hrem.picked_mem r hp).1
  have hfree := hrem.picked_free r hp rfl
  have hnot : (st.dev.request r).cancellation ≠ .fired :=
    fun hf => hfree ⟨(hi.flag r hm).mpr (.inr hf), hf⟩
  rw [hi.owned r, State.owed, if_pos hm, if_neg hnot]

theorem Inv.quiet_picked (hi : Inv st) {crit : RequestSearch} {left : RequestList} {picked : Option Handle}
    (hrem : Removal st.dev crit true left picked) {r : Handle} (hp : picked = some r) :
    (left.request r).cancellation ≠ .armed := by
  have hm := (hrem.picked_mem r hp).1
  rw [hrem.request_picked r hp, if_pos rfl, unmark]
  split_ifs with hc
  · simp
  · exact fun ha => hc ((hi.flag r hm).mpr (.inl ha))

theorem Inv.not_cancelRequest_picked (hi : Inv st) {crit : RequestSearch} {left : RequestList}
    {picked : Option Handle} (hrem : Removal st.dev crit true left picked) {r : Handle}
    (hr : .cancelRequest r ∈ st.tasks) : picked ≠ some r := by
  intro hp
  have hpos : 0 < owners st r := List.countP_pos_iff.mpr ⟨_, hr, by simp [Task.owns]⟩
  have := hi.owners_picked hrem hp
  omega

-- The request that `remove_request` returned, if any, becomes the job of one new task.
theorem Inv.of_pick (hi : Inv st) {st' : State} {crit : RequestSearch} {picked : Option Handle}
    (hrem : Removal st.dev crit true st'.dev picked) (job : Handle → Task)
    (howns : ∀ h r, (job h).owns r = (h == r)) (hholds : ∀ h r, (job h).holds r = (h == r))
    (hcancel : ∀ h r, job h ≠ .cancelRequest r) (hcontext : ∀ h r s, ¬(job h).IsContext r s)
    (hdrawn : ∀ h s, job h ≠ .drawn s)
    (hmem : ∀ t ∈ st'.tasks, t ∈ (picked.map job).toList ∨ t ∈ st.tasks)
    (howners : ∀ r, owners st' r = (picked.map job).toList.countP (Task.owns r) + owners st r)
    (honce : ∀ s, st'.tasks.countP (Task.carries s) ≤ st.tasks.countP (Task.carries s)) : Inv st' := by
  have hold : ∀ t ∈ st'.tasks, (∃ r, picked = some r ∧ t = job r) ∨ t ∈ st.tasks := by
    intro t ht
    refine (hmem t ht).imp (fun h => ?_) id
    rw [Option.mem_toList, Option.map_eq_some_iff] at h
    obtain ⟨r, hp, rfl⟩ := h
    exact ⟨r, hp, rfl⟩
  refine hi.of_removal hrem (fun r => hi.quiet_picked hrem) ?_ ?_ ?_ ?_ ?_ honce ?_
  · intro r hp
    rw [howners r]
    cases picked with
    | none => simp
    | some found => simp [howns, show found ≠ r from fun h => hp (h ▸ rfl)]
  · intro r hp
    rw [howners r, hi.owners_picked hrem hp]
    simp [hp, howns]
  · intro r t ht hh
    rcases hold t ht with ⟨found, hp, rfl⟩ | ht
    · obtain rfl : found = r := by simpa [hholds] using hh
      exact .inr (hrem.picked_mem _ hp).2
    · exact .inl ⟨t, ht, hh⟩
  · intro r hr
    rcases hold _ hr with ⟨found, _, he⟩ | hr
    · exact absurd he.symm (hcancel found r)
    · exact ⟨hr, fun hp => absurd hp (hi.not_cancelRequest_picked hrem hr)⟩
  · intro r s t ht hc
    rcases hold t ht with ⟨found, _, rfl⟩ | ht
    · exact absurd hc (hcontext found r s)
    · exact ⟨t, ht, hc⟩
  · intro s hs
    rcases hold _ hs with ⟨found, _, he⟩ | hs
    · exact absurd he.symm (hdrawn found s)
    · exact hs

theorem Inv.received (hi : Inv st) (s : Seqnum) : Inv (received st s) := by
  refine hi.of_pick (removeRequest_removal st.dev (.seqnum s) true hi.nodup) (.complete .recvLoop)
    (fun _ _ => rfl) (fun _ _ => rfl) (by simp) (by simp [Task.IsContext]) (by simp) ?_ ?_ ?_
  · intro t ht
    exact List.mem_append.mp ht
  · intro r
    exact List.countP_append
  · intro n
    rw [Device.received, List.countP_append]
    cases (removeRequest st.dev (.seqnum s) true).2 <;> simp [Task.carries]

theorem Inv.purged (hi : Inv st) {e : Endpoint} (ht : .endpointPurge e ∈ st.tasks) : Inv (purged st e) := by
  refine hi.of_pick (removeRequest_removal st.dev (.endpoint e) true hi.nodup) (.unlink (.endpointPurge e))
    (fun _ _ => rfl) (fun _ _ => rfl) (by simp) (by simp [Task.IsContext]) (by simp) ?_ ?_ ?_
  · intro t hm
    exact mem_advance hm
  · intro r
    exact countP_advance (Task.owns r) ht _
  · intro n
    have hcount := countP_advance (Task.carries n) ht
      ((removeRequest st.dev (.endpoint e) true).2.map (Task.unlink (.endpointPurge e))).toList
    have hnone : ((removeRequest st.dev (.endpoint e) true).2.map
        (Task.unlink (.endpointPurge e))).toList.countP (Task.carries n) = 0 := by
      cases (removeRequest st.dev (.endpoint e) true).2 <;> simp [Task.carries]
    rw [hnone, Nat.zero_add] at hcount
    exact Nat.le_of_eq hcount

-- Its own cancel callback takes the request over from itself.
theorem Inv.cancelled (hi : Inv st) {r : Handle} (ht : .cancelRequest r ∈ st.tasks) : Inv (cancelled st r) := by
  have hfired := hi.fired r ht
  have howners : ∀ h, owners (Device.cancelled st r) h = owners st h := by
    intro h
    have hcount := countP_advance (Task.owns h) ht [.unlink .cancelRequest r]
    rw [List.countP_singleton, show (Task.unlink .cancelRequest r).owns h = (Task.cancelRequest r).owns h from rfl,
      Nat.add_comm] at hcount
    exact Nat.add_left_cancel hcount
  have hrem := removeRequest_removal st.dev (.request r) false hi.nodup
  have hout : r ∉ (Device.cancelled st r).dev.entries := by
    rw [Device.cancelled, removeRequest_request]
    exact hi.nodup.not_mem_erase
  have hpick : ∀ h, (removeRequest st.dev (.request r) false).2 = some h → h = r := by
    intro h hp
    exact (by simpa [RequestSearch.matches] using hrem.picked_matches h hp : r = h).symm
  refine hi.of_removal hrem ?_ (fun h _ => howners h) ?_ ?_ ?_ ?_ ?_ ?_
  · intro h hp
    obtain rfl := hpick h hp
    rw [show (Device.cancelled st h).dev = (removeRequest st.dev (.request h) false).1 from rfl,
      hrem.request_picked h hp, if_neg (by simp), hfired]
    simp
  · intro h hp
    have hm := (hrem.picked_mem h hp).1
    obtain rfl := hpick h hp
    rw [howners, hi.owned, State.owed, if_pos hm, if_pos hfired]
  · intro h t hm hh
    rcases mem_advance hm with hm | hm
    · rw [List.mem_singleton.mp hm] at hh
      obtain rfl : r = h := by simpa [Task.holds] using hh
      exact .inr hout
    · exact .inl ⟨t, hm, hh⟩
  · intro h hm
    rcases mem_advance hm with hm | hm
    · simp at hm
    · exact ⟨hm, fun _ => rfl⟩
  · intro h n t hm hc
    rcases mem_advance hm with hm | hm
    · rw [List.mem_singleton.mp hm] at hc
      simp [Task.IsContext] at hc
    · exact ⟨t, hm, hc⟩
  · intro n
    have hcount := countP_advance (Task.carries n) ht [.unlink .cancelRequest r]
    exact Nat.le_of_eq (by simpa [Task.carries, Device.cancelled] using hcount)
  · intro n hn
    exact (mem_advance hn).resolve_left (by simp)

theorem Inv.cancelledByUpper (hi : Inv st) {r : Handle} (hbusy : (st.dev.request r).isFree = false) :
    Inv (cancelledByUpper st r) := by
  have hout : (st.dev.request r).Outstanding := by
    simp only [Request.isFree, Bool.or_eq_false_iff, beq_eq_false_iff_ne, bne_eq_false_iff_eq] at hbusy
    exact hbusy
  have howed := hi.owned r
  unfold State.owed at howed
  simp only [Device.cancelledByUpper]
  cases hc : (st.dev.request r).cancellation with
  | idle =>
      refine hi.of_set r { st.dev.request r with cancellation := .cancelled } rfl rfl
        (fun _ => hout) (fun _ => hout) (hi.once r) (fun _ _ => rfl) ?_ (fun h t ht hh => ⟨t, ht, hh⟩) ?_ (by simp) ?_
        (fun h s t ht hcx => ⟨⟨t, ht, hcx⟩, fun _ _ => rfl⟩) (fun _ => Nat.le_refl _) (fun _ ht => ht)
      · rw [hc] at howed
        exact howed
      · intro h ht
        refine .inr ⟨?_, ht⟩
        rintro rfl
        have := hi.fired h ht
        rw [hc] at this
        cases this
      · intro hm
        have := hi.flag r hm
        simpa [hc] using this
  | armed =>
      have hm := hi.armed r hout hc
      refine hi.of_set r { st.dev.request r with cancellation := .fired } rfl rfl
        (fun _ => hout) (fun _ => hout) (hi.once r) ?_ ?_ ?_ ?_ (by simp) ?_ ?_ ?_ ?_
      · intro h hne
        simp [owners, Task.owns, hne.symm]
      · rw [hc, if_pos hm] at howed
        simp only [owners] at howed ⊢
        simp [Task.owns, hm, howed]
      · intro h t ht hh
        rcases List.mem_cons.mp ht with rfl | ht
        · simp [Task.holds] at hh
        · exact ⟨t, ht, hh⟩
      · intro h ht
        by_cases hh : h = r
        · exact .inl ⟨hh, rfl⟩
        · refine .inr ⟨hh, ?_⟩
          simpa [hh] using ht
      · intro _
        have := hi.flag r hm
        simpa [hc] using this
      · intro h s t ht hcx
        rcases List.mem_cons.mp ht with rfl | ht
        · simp [Task.IsContext] at hcx
        · exact ⟨⟨t, ht, hcx⟩, fun _ _ => rfl⟩
      · intro s
        simp [Task.carries]
      · intro s hs
        simpa using hs
  | cancelled => exact hi
  | fired => exact hi

theorem Inv.completedBy (hi : Inv st) {thread : Thread} {r : Handle} (ht : .complete thread r ∈ st.tasks) :
    Inv (completedBy st thread r) := by
  have hholds : (Task.complete thread r).holds r = true := by simp [Task.holds]
  have hm : r ∉ st.dev.entries := hi.held r _ ht hholds
  have hout := hi.outstanding_of_owner ht (Task.owns_of_holds hholds)
  have hone := hi.owned r
  rw [State.owed, if_neg hm, if_pos hout] at hone
  have hpurge : ∀ t ∈ thread.resume, ∃ e, t = .endpointPurge e := by
    intro t hx
    cases thread <;> simp_all [Thread.resume]
  have hnone : ∀ p : Task → Bool, (∀ e, p (.endpointPurge e) = false) → thread.resume.countP p = 0 := by
    intro p hp
    refine List.countP_eq_zero.mpr fun t hm => ?_
    obtain ⟨e, rfl⟩ := hpurge t hm
    simp [hp e]
  have hown : ∀ h, owners (Device.completedBy st thread r) h + (if r = h then 1 else 0) = owners st h := by
    intro h
    have hcount := countP_advance (Task.owns h) ht thread.resume
    rw [hnone _ (by simp [Task.owns]), Nat.zero_add] at hcount
    simpa [owners, Task.owns, Device.completedBy] using hcount
  have hzero : owners (Device.completedBy st thread r) r = 0 := by
    have := hown r
    rw [if_pos rfl, hone] at this
    omega
  refine hi.of_set r { st.dev.request r with completed := (st.dev.request r).completed + 1 } rfl rfl
    (fun h => absurd h hm) (fun _ => hout) ?_ ?_ ?_ ?_ ?_ ?_ (fun h => absurd h hm) ?_ ?_ ?_
  · simp [hout.2]
  · intro h hne
    simpa [hne.symm] using hown h
  · rw [hzero, if_neg hm, if_neg (by simp [Request.Outstanding])]
  · intro h t hx hh
    rcases mem_advance hx with hx | hx
    · obtain ⟨e, rfl⟩ := hpurge t hx
      simp [Task.holds] at hh
    · exact ⟨t, hx, hh⟩
  · intro h hmem
    rcases mem_advance hmem with hx | hx
    · obtain ⟨e, he⟩ := hpurge _ hx
      cases he
    · refine .inr ⟨?_, hx⟩
      rintro rfl
      have hpos : 0 < owners (Device.completedBy st thread h) h :=
        List.countP_pos_iff.mpr ⟨_, hmem, by simp [Task.owns]⟩
      omega
  · intro ho
    simp [Request.Outstanding] at ho
  · intro h s t hx hcx
    rcases mem_advance hx with hx | hx
    · obtain ⟨e, rfl⟩ := hpurge t hx
      simp [Task.IsContext] at hcx
    · exact ⟨⟨t, hx, hcx⟩, fun _ hmem => absurd hmem hm⟩
  · intro s
    have hcount := countP_advance (Task.carries s) ht thread.resume
    rw [hnone _ (by simp [Task.carries]), Nat.zero_add] at hcount
    exact Nat.le_of_eq (by simpa [Task.carries, Device.completedBy] using hcount)
  · intro s hs
    refine (mem_advance hs).resolve_left fun hx => ?_
    obtain ⟨e, he⟩ := hpurge _ hx
    cases he

-- A context that WSK has given back is gone; nobody else has its sequence number.
theorem Inv.no_context_left (hi : Inv st) {r : Handle} {s : Seqnum} (ht : .sent r s ∈ st.tasks)
    {next : List Task} (hnext : ∀ t ∈ next, t.carries s = false) {h : Handle} {t : Task}
    (hm : t ∈ advance st.tasks (.sent r s) next) : ¬t.IsContext h s := by
  intro hc
  have hcount := countP_advance (Task.carries s) ht next
  have hzero : next.countP (Task.carries s) = 0 :=
    List.countP_eq_zero.mpr fun u hu => by simp [hnext u hu]
  have hpos : 0 < (advance st.tasks (.sent r s) next).countP (Task.carries s) :=
    List.countP_pos_iff.mpr ⟨t, hm, hc.carries⟩
  have hle := hi.contextOnce s
  rw [hzero, if_pos (by simp [Task.carries])] at hcount
  omega

theorem contexts_advance_le {t : Task} (ht : t ∈ st.tasks) {next : List Task}
    (hnext : ∀ n, ∀ u ∈ next, u.carries n = false)
    (n : Seqnum) : (advance st.tasks t next).countP (Task.carries n) ≤ st.tasks.countP (Task.carries n) := by
  have hcount := countP_advance (Task.carries n) ht next
  have hzero : next.countP (Task.carries n) = 0 :=
    List.countP_eq_zero.mpr fun u hu => by simp [hnext n u hu]
  omega

-- The context of the transfer finds its own entry, not yet marked, or none.
theorem Inv.own_entry (hi : Inv st) {r h : Handle} {s : Seqnum} (ht : .sent r s ∈ st.tasks)
    (hm : h ∈ st.dev.entries) (hs : (st.dev.request h).seqnum = s) :
    h = r ∧ owners st r = 0 ∧ (st.dev.request r).cancellation ≠ .armed ∧
      (st.dev.request r).cancellation ≠ .fired := by
  obtain ⟨rfl, hcan⟩ := hi.context r s _ ht (.inr (.inl rfl)) h hm hs
  have hflag := hi.flag h hm
  rw [hcan] at hflag
  have hnot : (st.dev.request h).cancellation ≠ .armed ∧ (st.dev.request h).cancellation ≠ .fired := by
    refine ⟨fun ha => ?_, fun hf => ?_⟩
    · exact absurd (hflag.mpr (.inl ha)) (by simp)
    · exact absurd (hflag.mpr (.inr hf)) (by simp)
  refine ⟨rfl, ?_, hnot⟩
  rw [hi.owned, State.owed, if_pos hm, if_neg hnot.2]

-- The transfer's entry leaves the list and becomes the job of `send_complete`.
theorem Inv.of_own_removal (hi : Inv st) {st' : State} {r : Handle} {s : Seqnum} (ht : .sent r s ∈ st.tasks)
    {crit : RequestSearch} (hrem : Removal st.dev crit false st'.dev (some r))
    (hs : (st.dev.request r).seqnum = s) {job : Task} (hjob : job = .unlink (.sendComplete s) r ∨
      job = .complete (.sendComplete s) r) (htasks : st'.tasks = advance st.tasks (.sent r s) [job]) :
    Inv st' := by
  have hm := (hrem.picked_mem r rfl).1
  obtain ⟨_, hzero, harmed, _⟩ := hi.own_entry ht hm hs
  have howns : ∀ h, job.owns h = (r == h) := by rcases hjob with rfl | rfl <;> exact fun _ => rfl
  have hholds : ∀ h, job.holds h = (r == h) := by rcases hjob with rfl | rfl <;> exact fun _ => rfl
  have hcarries : ∀ n, job.carries n = false := by rcases hjob with rfl | rfl <;> exact fun _ => rfl
  have hown : ∀ h, owners st' h = (if r = h then 1 else 0) + owners st h := by
    intro h
    have hcount := countP_advance (Task.owns h) ht [job]
    rw [← htasks, List.countP_singleton, howns h] at hcount
    simpa [owners, Task.owns] using hcount
  refine hi.of_removal hrem ?_ ?_ ?_ ?_ ?_ ?_ ?_ ?_
  · rintro h ⟨rfl⟩
    rw [hrem.request_picked _ rfl, if_neg (by simp)]
    exact harmed
  · intro h hp
    rw [hown h, if_neg (fun he : r = h => hp (he ▸ rfl)), Nat.zero_add]
  · rintro h ⟨rfl⟩
    rw [hown, if_pos rfl, hzero]
  · intro h t hx hh
    rw [htasks] at hx
    rcases mem_advance hx with hx | hx
    · rw [List.mem_singleton.mp hx, hholds] at hh
      exact .inr ((by simpa using hh : r = h) ▸ (hrem.picked_mem r rfl).2)
    · exact .inl ⟨t, hx, hh⟩
  · intro h hx
    rw [htasks] at hx
    rcases mem_advance hx with hx | hx
    · rcases hjob with rfl | rfl <;> simp at hx
    · exact ⟨hx, fun _ => rfl⟩
  · intro h n t hx hc
    rw [htasks] at hx
    rcases mem_advance hx with hx | hx
    · rw [List.mem_singleton.mp hx] at hc
      exact absurd hc.carries (by simp [hcarries])
    · exact ⟨t, hx, hc⟩
  · intro n
    rw [htasks]
    exact contexts_advance_le ht (by simpa using hcarries) n
  · intro n hx
    rw [htasks] at hx
    refine (mem_advance hx).resolve_left fun hx => ?_
    rcases hjob with rfl | rfl <;> simp at hx

-- The context goes away and nothing else happens.
theorem Inv.of_drop (hi : Inv st) {st' : State} {t : Task} (ht : t ∈ st.tasks) (howns : ∀ r, t.owns r = false)
    (hdev : st'.dev = st.dev) (htasks : st'.tasks = advance st.tasks t []) : Inv st' := by
  have hsub : ∀ t ∈ st'.tasks, t ∈ st.tasks := by
    intro t hx
    rw [htasks] at hx
    exact (mem_advance hx).resolve_left (by simp)
  refine hi.of_tasks hdev ?_ (fun h t hx hh => ⟨t, hsub t hx, hh⟩) (fun h hx => hsub _ hx)
    (fun h n t hx hc => ⟨t, hsub t hx, hc⟩) ?_ (fun n hx => hsub _ hx)
  · intro h
    have hcount := countP_advance (Task.owns h) ht []
    rw [← htasks] at hcount
    simpa [owners, howns] using hcount
  · intro n
    rw [htasks]
    exact contexts_advance_le ht (by simp) n

theorem Inv.sendFailed (hi : Inv st) {r : Handle} {s : Seqnum} (ht : .sent r s ∈ st.tasks)
    (hsame : r ∈ st.dev.entries → (st.dev.request r).seqnum = s) : Inv (sendCompleted st r s false) := by
  simp only [sendCompleted, removeRequest_request, Bool.false_eq_true, if_false]
  by_cases hm : r ∈ st.dev.entries
  · refine hi.of_own_removal ht
      (removal_erase st.dev (.request r) hi.nodup hm (by simp [RequestSearch.matches])) (hsame hm) (.inr rfl) ?_
    simp [hm]
  · refine hi.of_drop ht (fun _ => rfl) ?_ (by simp [hm])
    simp [List.erase_of_not_mem hm]

theorem Inv.sendSucceeded (hi : Inv st) {r : Handle} {s : Seqnum} (ht : .sent r s ∈ st.tasks) :
    Inv (sendCompleted st r s true) := by
  simp only [sendCompleted, if_true]
  rcases markRequestCancelable_cases st.dev s with ⟨he, _⟩ | ⟨h, hm, hs, hidle, he⟩ | ⟨h, hm, hs, hidle, he⟩
  · simp only [he, if_true]
    exact hi.of_drop ht (fun _ => rfl) rfl rfl
  · obtain ⟨rfl, hzero, _, _⟩ := hi.own_entry ht hm hs
    simp only [he, if_true]
    have hsub : ∀ t ∈ advance st.tasks (.sent h s) [], t ∈ st.tasks :=
      fun t hx => (mem_advance hx).resolve_left (by simp)
    have hown : ∀ a, (advance st.tasks (.sent h s) []).countP (Task.owns a) = owners st a := by
      intro a
      simpa [owners, Task.owns] using countP_advance (Task.owns a) ht []
    refine hi.of_set h _ rfl rfl (fun _ => hi.listed h hm) (fun _ => hi.listed h hm) (hi.once h)
      (fun a _ => hown a) ?_ (fun a t hx hh => ⟨t, hsub t hx, hh⟩) ?_ (fun _ _ => hm) (by simp) ?_
      (contexts_advance_le ht (by simp)) (fun n hx => hsub _ hx)
    · rw [if_pos hm, if_neg (by simp)]
      exact (hown h).trans hzero
    · intro a hx
      refine .inr ⟨?_, hsub _ hx⟩
      rintro rfl
      have := hi.fired a (hsub _ hx)
      rw [hidle] at this
      cases this
    · intro a n t hx hc
      refine ⟨⟨t, hsub t hx, hc⟩, fun hn _ => ?_⟩
      have hn : n = s := hn.trans hs
      exact absurd (hn ▸ hc) (hi.no_context_left ht (by simp) hx)
  · obtain ⟨rfl, _, _, _⟩ := hi.own_entry ht hm hs
    simp only [he]
    exact hi.of_own_removal ht
      (removal_erase st.dev (.seqnum s) hi.nodup hm (by simp [RequestSearch.matches, hs])) hs (.inl rfl) rfl

theorem not_inUse {s : Seqnum} (h : st.inUse s = false) :
    (∀ r ∈ st.dev.entries, (st.dev.request r).seqnum ≠ s) ∧ ∀ t ∈ st.tasks, t.uses st.dev s = false := by
  simpa [State.inUse] using h

theorem Inv.free (hi : Inv st) {r : Handle} (hfree : (st.dev.request r).isFree = true) :
    ¬(st.dev.request r).Outstanding ∧ r ∉ st.dev.entries ∧ owners st r = 0 := by
  have hnot : ¬(st.dev.request r).Outstanding := by
    intro ho
    simp [Request.isFree, ho.1, ho.2] at hfree
  have hm : r ∉ st.dev.entries := fun hm => hnot (hi.listed r hm)
  refine ⟨hnot, hm, ?_⟩
  rw [hi.owned, State.owed, if_neg hm, if_neg hnot]

theorem carries_of_not_uses {dev : RequestList} {s : Seqnum} {t : Task} (h : t.uses dev s = false) :
    t.carries s = false := by
  cases t <;> simp_all [Task.uses, Task.carries]

-- What `append_request` makes of a request that is delivered again.
theorem appendRequest_deliver (dev : RequestList) (r : Handle) (s : Seqnum) (e : Endpoint) :
    appendRequest (dev.set r (dev.request r).deliver) r s e =
      { entries := dev.entries ++ [r]
        request := (dev.set r { (dev.request r).deliver with
          endpoint := e, seqnum := s, cancelable := false }).request } := by
  simp only [appendRequest, RequestList.set_request_self, RequestList.set_entries]
  congr 1
  funext h
  by_cases hh : h = r
  · simp [RequestList.set, hh]
  · simp [RequestList.set, hh]

theorem mem_append_new {entries : List Handle} {r h : Handle} (hm : r ∉ entries) (hx : h ∈ entries ++ [r]) :
    (h ≠ r ∧ h ∈ entries) ∨ h = r := by
  rcases List.mem_append.mp hx with hx | hx
  · exact .inl ⟨fun he => hm (he ▸ hx), hx⟩
  · exact .inr (List.mem_singleton.mp hx)

-- A number that is not in use is not that of an outstanding request.
theorem Inv.new_seqnum (hi : Inv st) {s : Seqnum} (hnew : st.inUse s = false) {r : Handle}
    (ho : (st.dev.request r).Outstanding) : (st.dev.request r).seqnum ≠ s := by
  obtain ⟨hlist, huses⟩ := not_inUse hnew
  by_cases hm : r ∈ st.dev.entries
  · exact hlist r hm
  · have howned := hi.owned r
    rw [State.owed, if_neg hm, if_pos ho] at howned
    obtain ⟨t, ht, howns⟩ := List.countP_pos_iff.mp (show 0 < st.tasks.countP (Task.owns r) by
      rw [show st.tasks.countP (Task.owns r) = 1 from howned]
      omega)
    have := huses t ht
    cases t <;> simp_all [Task.uses, Task.owns]

theorem Inv.drew (hi : Inv st) {dirIn : Bool} (hnew : st.inUse (nextSeqnum st.seqnum dirIn).2 = false) :
    Inv (drew st dirIn) := by
  obtain ⟨_, huses⟩ := not_inUse hnew
  have hcarries : st.tasks.countP (Task.carries (nextSeqnum st.seqnum dirIn).2) = 0 :=
    List.countP_eq_zero.mpr fun t ht => by simp [carries_of_not_uses (huses t ht)]
  constructor
  case nodup => exact hi.nodup
  case listed => exact hi.listed
  case once => exact hi.once
  case armed => exact hi.armed
  case flag => exact hi.flag
  case unique => exact hi.unique
  case owned =>
    intro r
    have hsame : owners (Device.drew st dirIn) r = owners st r := by simp [owners, Device.drew, Task.owns]
    exact hsame.trans (hi.owned r)
  case held =>
    intro r t ht hh
    rcases List.mem_cons.mp ht with rfl | ht
    · simp [Task.holds] at hh
    · exact hi.held r t ht hh
  case fired =>
    intro r hr
    exact hi.fired r (by simpa [Device.drew] using hr)
  case context =>
    intro r s t ht hc
    rcases List.mem_cons.mp ht with rfl | ht
    · simp [Task.IsContext] at hc
    · exact hi.context r s t ht hc
  case contextOnce =>
    intro s
    by_cases hs : (nextSeqnum st.seqnum dirIn).2 = s
    · subst hs
      simp [Device.drew, Task.carries, hcarries]
    · simpa [Device.drew, Task.carries, hs] using hi.contextOnce s
  case drawn =>
    intro s ht r ho
    rcases List.mem_cons.mp ht with hs | ht
    · obtain rfl : s = (nextSeqnum st.seqnum dirIn).2 := Task.drawn.inj hs
      exact hi.new_seqnum hnew ho
    · exact hi.drawn s ht r ho

theorem Inv.submitted (hi : Inv st) {r : Handle} (e : Endpoint) {s : Seqnum}
    (hfree : (st.dev.request r).isFree = true) (hdrawn : .drawn s ∈ st.tasks) : Inv (submitted st r e s) := by
  obtain ⟨hnot, hm, hzero⟩ := hi.free hfree
  have hlist : ∀ h ∈ st.dev.entries, (st.dev.request h).seqnum ≠ s :=
    fun h hx => hi.drawn s hdrawn h (hi.listed h hx)
  simp only [Device.submitted]
  rw [appendRequest_deliver]
  generalize hreq : { (st.dev.request r).deliver with endpoint := e, seqnum := s, cancelable := false } = req
  have hself : (st.dev.set r req).request r = req := RequestList.set_request_self _ _ _
  have hne : ∀ h, h ≠ r → (st.dev.set r req).request h = st.dev.request h :=
    fun h hh => RequestList.set_request_ne _ _ hh
  have hout : req.Outstanding := by subst hreq; simp [Request.Outstanding, Request.deliver]
  have hidle : req.cancellation = .idle := by subst hreq; rfl
  have hcan : req.cancelable = false := by subst hreq; rfl
  have hseq : req.seqnum = s := by subst hreq; rfl
  have hcases : ∀ h, h ∈ st.dev.entries ++ [r] → (h ≠ r ∧ h ∈ st.dev.entries) ∨ h = r := fun h => mem_append_new hm
  -- the number was drawn for this context alone
  have hcarries : ∀ t ∈ st.tasks.erase (.drawn s), t.carries s = false :=
    fun t ht => not_of_mem_erase (hi.contextOnce s) hdrawn (by simp [Task.carries]) ht
  have hold : ∀ t ∈ st.tasks.erase (.drawn s), t ∈ st.tasks := fun t ht => List.mem_of_mem_erase ht
  have hheld : ∀ h, ∀ t ∈ st.tasks, t.owns h = true → h ≠ r := by
    rintro h t ht ho rfl
    have hpos : 0 < owners st h := List.countP_pos_iff.mpr ⟨t, ht, ho⟩
    omega
  constructor
  case nodup => exact List.Nodup.append hi.nodup (List.nodup_singleton r) (by simpa using hm)
  case listed =>
    intro h hx
    rcases hcases h hx with ⟨hh, hx⟩ | rfl
    · exact (hne h hh).symm ▸ hi.listed h hx
    · exact hself.symm ▸ hout
  case once =>
    intro h
    by_cases hh : h = r
    · simp only [hh, hself, hout.2]
      omega
    · simp only [hne h hh]
      exact hi.once h
  case owned =>
    intro h
    have hcount := countP_advance (Task.owns h) hdrawn [.sendSubmit r s]
    have hsame : (advance st.tasks (.drawn s) [.sendSubmit r s]).countP (Task.owns h) = owners st h := by
      simpa [owners, Task.owns] using hcount
    refine hsame.trans ?_
    by_cases hh : h = r
    · subst hh
      simp [State.owed, hidle, hzero]
    · rw [hi.owned h]
      simp [State.owed, hne h hh, hh]
  case held =>
    intro h t ht hh hx
    rcases List.mem_cons.mp ht with rfl | ht
    · simp [Task.holds] at hh
    · rcases hcases h hx with ⟨_, hx⟩ | hr
      · exact hi.held h t (hold t ht) hh hx
      · exact hheld h t (hold t ht) (Task.owns_of_holds hh) hr
  case fired =>
    intro h ht
    have ht : .cancelRequest h ∈ st.tasks := (mem_advance ht).resolve_left (by simp)
    simp only [hne h (hheld h _ ht (by simp [Task.owns]))]
    exact hi.fired h ht
  case armed =>
    intro h ho ha
    by_cases hh : h = r
    · simp only [hh, hself, hidle] at ha
      cases ha
    · simp only [hne h hh] at ho ha
      exact List.mem_append_left _ (hi.armed h ho ha)
  case flag =>
    intro h hx
    rcases hcases h hx with ⟨hh, hx⟩ | rfl
    · simp only [hne h hh]
      exact hi.flag h hx
    · simp [hidle, hcan]
  case unique =>
    intro a ha b hb he
    rcases hcases a ha with ⟨hna, ha⟩ | har <;> rcases hcases b hb with ⟨hnb, hb⟩ | hbr
    · simp only [hne a hna, hne b hnb] at he
      exact hi.unique a ha b hb he
    · simp only [hne a hna, hbr, hself, hseq] at he
      exact absurd he (hlist a ha)
    · simp only [hne b hnb, har, hself, hseq] at he
      exact absurd he.symm (hlist b hb)
    · rw [har, hbr]
  case context =>
    intro a n t ht hc h hx hs
    rcases List.mem_cons.mp ht with rfl | ht
    · obtain ⟨rfl, rfl⟩ : r = a ∧ s = n := by simpa [Task.IsContext] using hc
      rcases hcases h hx with ⟨hh, hx⟩ | hr
      · simp only [hne h hh] at hs
        exact absurd hs (hlist h hx)
      · exact ⟨hr, by simp only [hr, hself, hcan]⟩
    · rcases hcases h hx with ⟨hh, hx⟩ | hr
      · simp only [hne h hh] at hs ⊢
        exact hi.context a n t (hold t ht) hc h hx hs
      · simp only [hr, hself, hseq] at hs
        have hclash := hcarries t ht
        rw [hs, hc.carries] at hclash
        cases hclash
  case contextOnce =>
    intro n
    have hcount := countP_advance (Task.carries n) hdrawn [.sendSubmit r s]
    have hone := hi.contextOnce n
    have hsame : (Task.sendSubmit r s).carries n = (Task.drawn s).carries n := rfl
    rw [List.countP_singleton, hsame] at hcount
    exact (Nat.add_right_cancel (hcount.trans (Nat.add_comm _ _))).le.trans hone
  case drawn =>
    intro n ht h ho
    have ht : .drawn n ∈ st.tasks.erase (.drawn s) := by simpa [advance] using ht
    by_cases hh : h = r
    · have hne := hcarries _ ht
      simp only [hh, hself, hseq]
      rintro rfl
      simp [Task.carries] at hne
    · simp only [hne h hh] at ho ⊢
      exact hi.drawn n (hold _ ht) h ho

end Steps

-- A failing send completion does not find its handle recycled for another transfer.
def SameTransfer (st : State) : Action → Prop
  | .sendComplete r s false => r ∈ st.dev.entries → (st.dev.request r).seqnum = s
  | _ => True

instance (st : State) (a : Action) : Decidable (SameTransfer st a) :=
  match a with
  | .sendComplete r s false =>
    inferInstanceAs (Decidable (r ∈ st.dev.entries → (st.dev.request r).seqnum = s))
  | .sendComplete _ _ true | .draw _ | .drop _ | .submit .. | .wskSend .. | .receive _ | .cancel _ | .cancelRequest _
  | .endpointPurge _ | .purgeNext _ | .unlink .. | .sendUnlink .. | .complete .. | .close => isTrue trivial

-- Nor is a number drawn that a transfer or its context still has.
def FreshSeqnum (st : State) : Action → Prop
  | .draw dirIn => st.inUse (nextSeqnum st.seqnum dirIn).2 = false
  | _ => True

instance (st : State) (a : Action) : Decidable (FreshSeqnum st a) :=
  match a with
  | .draw dirIn => inferInstanceAs (Decidable (st.inUse (nextSeqnum st.seqnum dirIn).2 = false))
  | .drop _ | .submit .. | .wskSend .. | .sendComplete .. | .receive _ | .cancel _ | .cancelRequest _
  | .endpointPurge _ | .purgeNext _ | .unlink .. | .sendUnlink .. | .complete .. | .close => isTrue trivial

-- The runs without either of the two mix-ups of transfers.
def KeepsApart (st : State) (a : Action) : Prop := SameTransfer st a ∧ FreshSeqnum st a

instance (st : State) (a : Action) : Decidable (KeepsApart st a) :=
  inferInstanceAs (Decidable (_ ∧ _))

-- When each step can be taken, and what it does then.
inductive Steps (st : State) : Action → State → Prop
  | draw (dirIn : Bool) : Steps st (.draw dirIn) (drew st dirIn)
  | drop (s : Seqnum) : .drawn s ∈ st.tasks →
      Steps st (.drop s) { st with tasks := advance st.tasks (.drawn s) [] }
  | submit (r : Handle) (e : Endpoint) (s : Seqnum) : (st.dev.request r).isFree = true →
      .drawn s ∈ st.tasks → Steps st (.submit r e s) (submitted st r e s)
  | wskSend (r : Handle) (s : Seqnum) : .sendSubmit r s ∈ st.tasks →
      Steps st (.wskSend r s)
        (if st.closing then { st with tasks := advance st.tasks (.sendSubmit r s) [.refused r s] }
          else
            { st with
              tasks := advance st.tasks (.sendSubmit r s) [.sent r s]
              wire := st.wire ++ [.submit s] })
  | sendComplete (r : Handle) (s : Seqnum) (success : Bool) : .sent r s ∈ st.tasks →
      Steps st (.sendComplete r s success) (sendCompleted st r s success)
  | receive (s : Seqnum) : st.tasks.any Task.isReceiving = false → Steps st (.receive s) (received st s)
  | cancel (r : Handle) : (st.dev.request r).isFree = false → Steps st (.cancel r) (cancelledByUpper st r)
  | cancelRequest (r : Handle) : .cancelRequest r ∈ st.tasks → Steps st (.cancelRequest r) (cancelled st r)
  | endpointPurge (e : Endpoint) :
      Steps st (.endpointPurge e) { st with tasks := .endpointPurge e :: st.tasks }
  | purgeNext (e : Endpoint) : .endpointPurge e ∈ st.tasks → Steps st (.purgeNext e) (purged st e)
  | unlink (thread : Thread) (r : Handle) (skip : Bool) : .unlink thread r ∈ st.tasks →
      Steps st (.unlink thread r skip) (unlinking st thread r skip)
  | sendUnlink (thread : Thread) (r : Handle) (s : Seqnum) : .sendUnlink thread r s ∈ st.tasks →
      Steps st (.sendUnlink thread r s)
        { st with
          tasks := advance st.tasks (.sendUnlink thread r s) [.complete thread r]
          wire := if st.closing then st.wire else st.wire ++ [.unlink s] }
  | complete (thread : Thread) (r : Handle) : .complete thread r ∈ st.tasks →
      Steps st (.complete thread r) (completedBy st thread r)
  | close : Steps st .close { st with closing := true }

theorem step_cases {st st' : State} {a : Action} (hstep : step st a = some st') : Steps st a st' := by
  cases a with
  | draw dirIn =>
      exact Option.some.inj hstep ▸ .draw dirIn
  | drop s =>
      obtain ⟨ht, he⟩ := Option.ite_none_right_eq_some.mp hstep
      exact Option.some.inj he ▸ .drop s ht
  | submit r e s =>
      obtain ⟨⟨hfree, ht⟩, he⟩ := Option.ite_none_right_eq_some.mp hstep
      exact Option.some.inj he ▸ .submit r e s hfree ht
  | wskSend r s =>
      obtain ⟨ht, he⟩ := Option.ite_none_right_eq_some.mp hstep
      exact Option.some.inj he ▸ .wskSend r s ht
  | sendComplete r s success =>
      obtain ⟨ht, he⟩ := Option.ite_none_right_eq_some.mp hstep
      exact Option.some.inj he ▸ .sendComplete r s success ht
  | receive s =>
      obtain ⟨hnone, he⟩ := Option.ite_none_right_eq_some.mp hstep
      exact Option.some.inj he ▸ .receive s hnone
  | cancel r =>
      obtain ⟨hbusy, he⟩ := Option.ite_none_right_eq_some.mp hstep
      exact Option.some.inj he ▸ .cancel r hbusy
  | cancelRequest r =>
      obtain ⟨ht, he⟩ := Option.ite_none_right_eq_some.mp hstep
      exact Option.some.inj he ▸ .cancelRequest r ht
  | endpointPurge e =>
      exact Option.some.inj hstep ▸ .endpointPurge e
  | purgeNext e =>
      obtain ⟨ht, he⟩ := Option.ite_none_right_eq_some.mp hstep
      exact Option.some.inj he ▸ .purgeNext e ht
  | unlink thread r skip =>
      obtain ⟨ht, he⟩ := Option.ite_none_right_eq_some.mp hstep
      exact Option.some.inj he ▸ .unlink thread r skip ht
  | sendUnlink thread r s =>
      obtain ⟨ht, he⟩ := Option.ite_none_right_eq_some.mp hstep
      exact Option.some.inj he ▸ .sendUnlink thread r s ht
  | complete thread r =>
      obtain ⟨ht, he⟩ := Option.ite_none_right_eq_some.mp hstep
      exact Option.some.inj he ▸ .complete thread r ht
  | close =>
      exact Option.some.inj hstep ▸ .close

theorem Inv.step {st st' : State} {a : Action} (hi : Inv st) (hok : KeepsApart st a)
    (hstep : step st a = some st') : Inv st' := by
  cases step_cases hstep with
  | draw dirIn =>
      exact hi.drew hok.2
  | drop s ht =>
      exact hi.of_drop ht (fun _ => rfl) rfl rfl
  | submit r e s hfree ht =>
      exact hi.submitted e hfree ht
  | wskSend r s ht =>
      exact hi.wskSend ht
  | sendComplete r s success ht =>
      cases success with
      | true => exact hi.sendSucceeded ht
      | false => exact hi.sendFailed ht hok.1
  | receive s _ =>
      exact hi.received s
  | cancel r hbusy =>
      exact hi.cancelledByUpper hbusy
  | cancelRequest r ht =>
      exact hi.cancelled ht
  | endpointPurge e =>
      exact hi.endpointPurge e
  | purgeNext e ht =>
      exact hi.purged ht
  | unlink thread r skip ht =>
      exact hi.unlinking ht skip
  | sendUnlink thread r s ht =>
      exact hi.sendUnlink ht _
  | complete thread r ht =>
      exact hi.completedBy ht
  | close =>
      exact hi.of_tasks rfl (fun _ => rfl) (fun _ t ht hh => ⟨t, ht, hh⟩) (fun _ ht => ht)
        (fun _ _ t ht hc => ⟨t, ht, hc⟩) (fun _ => Nat.le_refl _) (fun _ ht => ht)

theorem reachable_inv {st : State} (h : machine.Reachable KeepsApart st) : Inv st :=
  h.invariant (fun _ => inv_init) fun _ _ _ hi hok hs => hi.step hok hs

end Usbip.Device
