import Usbip.Library.Selection
import Usbip.Libusbip.DeviceFilter.Theorems
import Usbip.Wusbip.FilterDialog
import Usbip.Wusbip.PreFilter.Theorems

namespace Usbip.Wusbip

open Usbip.DeviceFilter
open Usbip.Libusbip
open Usbip.Library.Selection

-- The driver's `is_allowed` for a list of any length.
def allows (p : DeviceFilterPolicy) (cls sub proto : Byte) : Bool :=
  p.mode == .disabled || p.entries.any fun e => e.accepts cls sub proto

namespace FilterDialog

def groups : List (List DeviceFilterEntry) := deviceTypeCategories.map DeviceTypeCategory.entries

theorem separate_groups : Separate groups := ⟨by decide, by decide⟩

variable {p : DeviceFilterPolicy} {d : FilterDialog}

theorem isChecked_init : (init p).isChecked = marksOf groups p.entries := by
  rw [isChecked, init, List.map_map, marksOf, groups, List.map_map]
  rfl

theorem length_isChecked (d : FilterDialog) : d.isChecked.length = groups.length := by
  have hnames := congrArg List.length d.names
  simp only [List.length_map] at hnames
  rw [isChecked, groups, List.length_map, List.length_map, hnames]

theorem policy_enabled (h : d.enable = true) :
    d.policy = { mode := .whitelist, entries := membersOf groups d.isChecked } := by
  rw [policy, if_neg (by simp [h]), membersOf, groups, List.zip_map_left, List.foldl_map]
  rfl

theorem policy_disabled (h : d.enable = false) : d.policy = { mode := .disabled, entries := [] } := if_pos h

-- What the dialog has made is what it shows, and it makes the same of it again.
theorem isChecked_init_policy (h : d.enable = true) : (init d.policy).isChecked = d.isChecked := by
  rw [isChecked_init, policy_enabled h]
  exact marksOf_membersOf separate_groups (length_isChecked d)

theorem policy_init_policy (d : FilterDialog) : (init d.policy).policy = d.policy := by
  cases h : d.enable with
  | true =>
      have henable : (init d.policy).enable = true := by
        rw [policy_enabled h]
        rfl
      rw [policy_enabled henable, isChecked_init_policy h, ← policy_enabled h]
  | false =>
      rw [policy_disabled h]
      rfl

theorem length_policy_le (d : FilterDialog) : d.policy.entries.length ≤ MAX_DEVICE_FILTER_ENTRIES := by
  cases h : d.enable with
  | true =>
      rw [policy_enabled h]
      exact length_membersOf_le.trans (by decide)
  | false =>
      rw [policy_disabled h]
      exact Nat.zero_le _

end FilterDialog

section Accept

variable {p : DeviceFilterPolicy} {cls sub proto : Byte}

-- Every entry is for a class, and that class is of a category of which no entry is missing.
def Covered (p : DeviceFilterPolicy) : Prop :=
  ∀ e ∈ p.entries, e.matchFlags &&& FILTER_MATCH_CLASS ≠ 0 ∧
    ∃ c ∈ deviceTypeCategories, categoryEnabled p c = true ∧ classEntry e.bClass ∈ c.entries

theorem accepts_classEntry (bClass : Byte) : (classEntry bClass).accepts cls sub proto = true ↔ cls = bClass := by
  have hclass : (FILTER_MATCH_CLASS &&& FILTER_MATCH_CLASS != 0) = true := rfl
  have hsub : (FILTER_MATCH_CLASS &&& FILTER_MATCH_SUBCLASS != 0) = false := rfl
  have hproto : (FILTER_MATCH_CLASS &&& FILTER_MATCH_PROTOCOL != 0) = false := rfl
  simp only [classEntry, DeviceFilterEntry.accepts, hclass, hsub, hproto, Bool.true_and, Bool.false_and, Bool.not_false,
    Bool.and_true, Bool.not_eq_true', bne_eq_false_iff_eq]
  exact eq_comm

theorem entries_classEntry {c : DeviceTypeCategory} (hc : c ∈ deviceTypeCategories) {e : DeviceFilterEntry}
    (he : e ∈ c.entries) : e = classEntry e.bClass := by
  revert c e
  decide

theorem accepts_self (e : DeviceFilterEntry) : e.accepts e.bClass e.bSubClass e.bProtocol = true := by
  simp [DeviceFilterEntry.accepts]

-- One class triple, while the filter is on.
theorem allows_accept_iff (hmode : p.mode = .whitelist) :
    allows (FilterDialog.init p).policy cls sub proto = allows p cls sub proto ↔
      ∀ e ∈ p.entries, e.accepts cls sub proto = true →
        ∃ c ∈ deviceTypeCategories, categoryEnabled p c = true ∧ classEntry cls ∈ c.entries := by
  have henable : (FilterDialog.init p).enable = true := by
    rw [FilterDialog.init, hmode]
    rfl
  have hoff : (p.mode == FilterMode.disabled) = false := by
    rw [hmode]
    rfl
  have hon : (FilterMode.whitelist == FilterMode.disabled) = false := rfl
  have hiff : ((∃ e ∈ membersOf FilterDialog.groups (marksOf FilterDialog.groups p.entries),
      e.accepts cls sub proto = true) ↔ ∃ e ∈ p.entries, e.accepts cls sub proto = true) ↔ _ := exists_mem_iff
  rw [FilterDialog.policy_enabled henable, FilterDialog.isChecked_init, allows, allows, hoff, hon, Bool.false_or,
    Bool.false_or, Bool.eq_iff_iff, List.any_eq_true, List.any_eq_true, hiff]
  refine forall₂_congr fun e he => imp_congr_right fun haccepts => ?_
  constructor
  · rintro ⟨group, hgroup, hholds, y, hy, hadmits⟩
    obtain ⟨c, hc, rfl⟩ := List.mem_map.mp hgroup
    rw [entries_classEntry hc hy, accepts_classEntry] at hadmits
    rw [entries_classEntry hc hy, ← hadmits] at hy
    exact ⟨c, hc, hholds, hy⟩
  · rintro ⟨c, hc, hholds, hclass⟩
    exact ⟨c.entries, List.mem_map_of_mem hc, hholds, _, hclass, (accepts_classEntry cls).mpr rfl⟩

-- Class 4 is of no category.
theorem covered_iff : Covered p ↔
    ∀ cls sub proto, ∀ e ∈ p.entries, e.accepts cls sub proto = true →
      ∃ c ∈ deviceTypeCategories, categoryEnabled p c = true ∧ classEntry cls ∈ c.entries := by
  constructor
  · intro hcovered cls sub proto e he haccepts
    obtain ⟨hflag, c, hc, henabled, hclass⟩ := hcovered e he
    have hcls : cls = e.bClass := by
      simp only [DeviceFilterEntry.accepts, bne_iff_ne.mpr hflag, Bool.true_and, Bool.and_eq_true, Bool.not_eq_true',
        bne_eq_false_iff_eq] at haccepts
      exact haccepts.1.1.symm
    exact ⟨c, hc, henabled, hcls ▸ hclass⟩
  · intro hall e he
    refine ⟨fun hflag => ?_, hall _ _ _ e he (accepts_self e)⟩
    have haccepts : e.accepts 4 e.bSubClass e.bProtocol = true := by
      simp [DeviceFilterEntry.accepts, hflag]
    obtain ⟨c, hc, -, hclass⟩ := hall _ _ _ e he haccepts
    revert c
    decide

-- A whitelist that is opened and accepted as it is allows the same if the categories cover it.
theorem accept_preserves_iff (entries : List DeviceFilterEntry) :
    (∀ cls sub proto, allows (FilterDialog.init { entries := entries }).policy cls sub proto =
      allows { entries := entries } cls sub proto) ↔ Covered { entries := entries } := by
  rw [covered_iff]
  exact forall_congr' fun cls => forall_congr' fun sub => forall_congr' fun proto => allows_accept_iff rfl

-- Boot keyboards only
def bootKeyboard : DeviceFilterEntry := { bClass := 3, bSubClass := 1, bProtocol := 1, matchFlags := 7 }

theorem bootKeyboard_dropped :
    ¬ ∀ cls sub proto, allows (FilterDialog.init { entries := [bootKeyboard] }).policy cls sub proto =
      allows { entries := [bootKeyboard] } cls sub proto := by
  intro hall
  exact absurd (hall 3 1 1) (by decide)

end Accept

section Edit

variable {env : VhciIoctl.Env} (getPool : Nat → Nat → Byte) (setPool : Nat → Byte) {fuel : Nat}

-- The policy of the driver, whatever the registry holds.
def current (env : VhciIoctl.Env) : DeviceFilterPolicy := policyOf (load env.garbage env.filter)

theorem isAllowed_policyOf (p : Policy) (hmode : p.mode = filterModeDisabled ∨ p.mode = filterModeWhitelist)
    (cls sub proto : Byte) : isAllowed p cls sub proto = allows (policyOf p) cls sub proto := by
  rcases hmode with h | h <;> rw [isAllowed, allows, policyOf, h] <;> rfl

-- A dialog that is accepted ends in the policy that the driver goes by from then on.
theorem onEditDeviceFilter_saved (hfuel : 3 ≤ fuel) (hopen : env.openParameters = .STATUS_SUCCESS)
    (hassign : env.assignValue = .STATUS_SUCCESS) (user : FilterDialog → Option FilterDialog) {dlg : FilterDialog}
    (huser : user (.init (current env)) = some dlg) :
    ∃ bytes, onEditDeviceFilter env true getPool setPool fuel user = some (.saved dlg.policy, some bytes) ∧
      ∀ garbage cls sub proto, isAllowed (load garbage (.read REG_BINARY bytes)) cls sub proto =
        allows dlg.policy cls sub proto := by
  have hlength := dlg.length_policy_le
  have hstore : (VhciIoctl.store env (kernelPolicy dlg.policy)).1 = .STATUS_SUCCESS := by
    simp [VhciIoctl.store, hopen, hassign]
  have hset : setDeviceFilter env setPool dlg.policy =
      (none, some (policyBytes dlg.policy.mode.toByte dlg.policy.entries)) := by
    rw [setDeviceFilter_eq hlength, if_pos hstore, store_kernelPolicy hlength hstore]
  refine ⟨policyBytes dlg.policy.mode.toByte dlg.policy.entries, ?_, fun garbage cls sub proto => ?_⟩
  · rw [onEditDeviceFilter, if_neg (by decide), getDeviceFilter_policyOf env getPool hfuel, Option.map_some]
    rw [current] at huser
    simp only [huser, hset]
  · rw [load_policyBytes garbage (toByte_cases _) hlength]
    exact isAllowed_kernelPolicy hlength cls sub proto

-- To look at the whitelist of the driver and press OK keeps its decisions if the categories cover it.
theorem onEditDeviceFilter_untouched (hfuel : 3 ≤ fuel) (hopen : env.openParameters = .STATUS_SUCCESS)
    (hassign : env.assignValue = .STATUS_SUCCESS) (hmode : (current env).mode = .whitelist) :
    ∃ bytes, (onEditDeviceFilter env true getPool setPool fuel some).map Prod.snd = some (some bytes) ∧
      ∀ garbage,
        (∀ cls sub proto, isAllowed (load garbage (.read REG_BINARY bytes)) cls sub proto =
          isAllowed (load env.garbage env.filter) cls sub proto) ↔ Covered (current env) := by
  obtain ⟨bytes, hedit, hallow⟩ := onEditDeviceFilter_saved getPool setPool hfuel hopen hassign some rfl
  refine ⟨bytes, by rw [hedit]; rfl, fun garbage => ?_⟩
  rw [covered_iff]
  refine forall_congr' fun cls => forall_congr' fun sub => forall_congr' fun proto => ?_
  rw [hallow, isAllowed_policyOf _ (load_canonical env.garbage env.filter).2, ← current]
  exact allows_accept_iff hmode

end Edit

end Usbip.Wusbip
