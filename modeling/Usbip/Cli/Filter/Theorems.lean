import Usbip.Cli.Filter
import Usbip.Wusbip.FilterDialog.Theorems

namespace Usbip.Cli.Filter

open Usbip.DeviceFilter
open Usbip.Library.Selection
open Usbip.Libusbip
open Usbip.Wusbip (DeviceTypeCategory deviceTypeCategories contains categoryEnabled)
open Usbip.Wusbip.FilterDialog (pushEntries)

section Categories

theorem mem_categories {c c' : String × DeviceTypeCategory} (hc : c ∈ categories) (hc' : c' ∈ categories)
    {e : DeviceFilterEntry} (he : e ∈ c.2.entries) (he' : e ∈ c'.2.entries) : c = c' := by
  have hall : ∀ c ∈ categories, ∀ c' ∈ categories, ∀ e ∈ c.2.entries, e ∈ c'.2.entries → c = c' := by decide
  exact hall c hc c' hc' e he he'

theorem entries_ne_nil {c : String × DeviceTypeCategory} (hc : c ∈ categories) : c.2.entries ≠ [] := by
  revert c
  decide

theorem findCategory_eq_some {id : String} {c : DeviceTypeCategory} :
    findCategory id = some c ↔ (id, c) ∈ categories := by
  constructor
  · intro h
    obtain ⟨⟨id', c'⟩, hfind, rfl⟩ := Option.map_eq_some_iff.mp h
    have hid : id' = id := eq_of_beq (List.find?_eq_some_iff_append.mp hfind).1
    exact hid ▸ List.mem_of_find?_eq_some hfind
  · have hall : ∀ c ∈ categories, findCategory c.1 = some c.2 := by decide
    exact fun hmem => hall _ hmem

end Categories

section Policy

variable {ids : List String} {entries : List DeviceFilterEntry}

theorem pushEntries_eq (entries : List DeviceFilterEntry) (c : DeviceTypeCategory) :
    pushEntries entries c = c.entries.foldl addNew entries := rfl

-- The loop ends with the error of the first identifier that is not known, or with the entries of all categories.
theorem pushCategories_eq :
    pushCategories entries ids =
      (ids.find? fun id => (findCategory id).isNone).elim
        (.ok ((ids.filterMap findCategory).foldl pushEntries entries)) .error := by
  induction ids generalizing entries with
  | nil => rfl
  | cons id ids ih =>
      cases hid : findCategory id with
      | none => simp [pushCategories, hid]
      | some c => simp [pushCategories, hid, ih]

theorem mem_foldl_pushEntries {cs : List DeviceTypeCategory} {e : DeviceFilterEntry} :
    e ∈ cs.foldl pushEntries entries ↔ e ∈ entries ∨ ∃ c ∈ cs, e ∈ c.entries := by
  induction cs generalizing entries with
  | nil => simp
  | cons c cs ih =>
      rw [List.foldl_cons, ih, pushEntries_eq, mem_foldl_addNew]
      simp [or_assoc]

theorem nodup_foldl_pushEntries {cs : List DeviceTypeCategory} (h : entries.Nodup) :
    (cs.foldl pushEntries entries).Nodup := by
  induction cs generalizing entries with
  | nil => exact h
  | cons c cs ih =>
      refine ih ?_
      rw [pushEntries_eq]
      exact nodup_foldl_addNew h

-- The entries of the categories that are named.
def entriesOf (ids : List String) : List DeviceFilterEntry := (ids.filterMap findCategory).foldl pushEntries []

theorem mem_entriesOf {e : DeviceFilterEntry} :
    e ∈ entriesOf ids ↔ ∃ c ∈ categories, c.1 ∈ ids ∧ e ∈ c.2.entries := by
  rw [entriesOf, mem_foldl_pushEntries]
  simp only [List.not_mem_nil, false_or, List.mem_filterMap, findCategory_eq_some]
  constructor
  · rintro ⟨c, ⟨id, hid, hc⟩, he⟩
    exact ⟨(id, c), hc, hid, he⟩
  · rintro ⟨c, hc, hid, he⟩
    exact ⟨c.2, ⟨c.1, hid, hc⟩, he⟩

theorem length_entriesOf (ids : List String) : (entriesOf ids).length ≤ MAX_DEVICE_FILTER_ENTRIES := by
  have hsubset : entriesOf ids ⊆ categories.flatMap fun c => c.2.entries := by
    intro e he
    obtain ⟨c, hc, -, he⟩ := mem_entriesOf.mp he
    exact List.mem_flatMap.mpr ⟨c, hc, he⟩
  have hnodup : (entriesOf ids).Nodup := nodup_foldl_pushEntries List.nodup_nil
  exact ((List.subperm_of_subset hnodup hsubset).length_le).trans (by decide)

-- A category is shown as enabled if it was named: no other category has entries of it.
theorem categoryEnabled_entriesOf {c : String × DeviceTypeCategory} (hc : c ∈ categories) (mode : FilterMode) :
    categoryEnabled { mode := mode, entries := entriesOf ids } c.2 = ids.contains c.1 := by
  have hne := entries_ne_nil hc
  rw [Bool.eq_iff_iff, List.contains_iff_mem]
  simp only [categoryEnabled, contains, Bool.and_eq_true, Bool.not_eq_true', List.isEmpty_eq_false_iff,
    List.all_eq_true, List.contains_iff_mem]
  constructor
  · rintro ⟨-, hall⟩
    obtain ⟨e, he⟩ := List.exists_mem_of_ne_nil _ hne
    obtain ⟨c', hc', hid, he'⟩ := mem_entriesOf.mp (hall e he)
    rwa [mem_categories hc hc' he he']
  · exact fun hid => ⟨hne, fun e he => mem_entriesOf.mpr ⟨c, hc, hid, he⟩⟩

theorem additionalEntries_entriesOf (mode : FilterMode) :
    additionalEntries { mode := mode, entries := entriesOf ids } = [] := by
  refine List.filter_eq_nil_iff.mpr fun e he => ?_
  obtain ⟨c, hc, hid, hmem⟩ := mem_entriesOf.mp he
  have henabled : categoryEnabled { mode := mode, entries := entriesOf ids } c.2 = true := by
    rw [categoryEnabled_entriesOf hc, List.contains_iff_mem]
    exact hid
  simp only [contains, Bool.not_eq_true', Bool.not_eq_false, List.contains_iff_mem]
  exact List.mem_flatMap.mpr ⟨c, List.mem_filter.mpr ⟨hc, henabled⟩, hmem⟩

end Policy

section Command

variable {args : FilterArgs}

-- What the arguments ask for.
def FilterArgs.policy (args : FilterArgs) : DeviceFilterPolicy where
  mode := if args.disable then .disabled else .whitelist
  entries := if args.disable || args.denyAll then [] else entriesOf args.categories

-- The identifier that the command stops at.
def FilterArgs.unknown (args : FilterArgs) : Option String :=
  if args.disable || args.denyAll then none else args.categories.find? fun id => (findCategory id).isNone

-- The command shows the categories that were named, and nothing else.
def FilterArgs.status (args : FilterArgs) : List String :=
  let named := if args.denyAll then [] else args.categories
  if args.disable then ["Device-type filter: DISABLED (all device types are allowed)"]
  else
    ("Device-type filter: WHITELIST" ++ if named.isEmpty then " (empty => every device is denied)" else "") ::
      "Categories:" :: Filter.categories.map fun c => printCategory (named.contains c.1) c

theorem makePolicy_eq (args : FilterArgs) : makePolicy args = args.unknown.elim (.ok args.policy) .error := by
  cases hdisable : args.disable with
  | true => simp [makePolicy, FilterArgs.unknown, FilterArgs.policy, hdisable]
  | false =>
      cases hdeny : args.denyAll with
      | true => simp [makePolicy, FilterArgs.unknown, FilterArgs.policy, hdisable, hdeny]
      | false =>
          simp only [makePolicy, FilterArgs.unknown, FilterArgs.policy, hdisable, hdeny, pushCategories_eq, entriesOf]
          cases args.categories.find? fun id => (findCategory id).isNone <;> rfl

theorem length_policy (args : FilterArgs) : args.policy.entries.length ≤ MAX_DEVICE_FILTER_ENTRIES := by
  change (if args.disable || args.denyAll then [] else entriesOf args.categories).length ≤ _
  split
  · exact Nat.zero_le _
  · exact length_entriesOf _

theorem isEmpty_entriesOf {ids : List String} (hknown : ids.find? (fun id => (findCategory id).isNone) = none) :
    (entriesOf ids).isEmpty = ids.isEmpty := by
  cases ids with
  | nil => rfl
  | cons id ids =>
      have hid := List.find?_eq_none.mp hknown id List.mem_cons_self
      obtain ⟨c, hc⟩ := Option.ne_none_iff_exists'.mp (by simpa using hid)
      have hmem := findCategory_eq_some.mp hc
      obtain ⟨e, he⟩ := List.exists_mem_of_ne_nil _ (entries_ne_nil hmem)
      have hentry : e ∈ entriesOf (id :: ids) := mem_entriesOf.mpr ⟨(id, c), hmem, List.mem_cons_self, he⟩
      rw [List.isEmpty_cons, List.isEmpty_eq_false_iff]
      exact List.ne_nil_of_mem hentry

theorem printPolicy_whitelist {ids : List String}
    (hknown : ids.find? (fun id => (findCategory id).isNone) = none) :
    printPolicy { mode := .whitelist, entries := entriesOf ids } =
      ("Device-type filter: WHITELIST" ++ if ids.isEmpty then " (empty => every device is denied)" else "") ::
        "Categories:" :: categories.map fun c => printCategory (ids.contains c.1) c := by
  have hmarks : (categories.map fun c =>
      printCategory (categoryEnabled { mode := .whitelist, entries := entriesOf ids } c.2) c) =
        categories.map fun c => printCategory (ids.contains c.1) c :=
    List.map_congr_left fun c hc => by rw [categoryEnabled_entriesOf hc]
  simp only [printPolicy, reduceCtorEq, ↓reduceIte, additionalEntries_entriesOf, isEmpty_entriesOf hknown, hmarks,
    List.append_nil]

theorem printPolicy_policy (hknown : args.unknown = none) : printPolicy args.policy = args.status := by
  cases hdisable : args.disable with
  | true => simp [printPolicy, FilterArgs.policy, FilterArgs.status, hdisable]
  | false =>
      cases hdeny : args.denyAll with
      | true =>
          have hempty := @printPolicy_whitelist [] rfl
          simp only [FilterArgs.policy, FilterArgs.status, hdisable, hdeny]
          exact hempty
      | false =>
          have hids : args.categories.find? (fun id => (findCategory id).isNone) = none := by
            simpa [FilterArgs.unknown, hdisable, hdeny] using hknown
          simp only [FilterArgs.policy, FilterArgs.status, hdisable, hdeny]
          exact printPolicy_whitelist hids

variable {env : VhciIoctl.Env} (getPool : Nat → Nat → Byte) (setPool : Nat → Byte) {fuel : Nat}

theorem cmdFilter_unknown (hlist : args.listCategories = false) (hmodify : args.modify = true) {id : String}
    (hunknown : args.unknown = some id) :
    cmdFilter env true getPool setPool fuel args = some { error := some (.unknownCategory id) } := by
  simp only [cmdFilter, hlist, hmodify, makePolicy_eq, hunknown]
  rfl

theorem cmdFilter_show (hlist : args.listCategories = false) (hmodify : args.modify = false)
    {policy : DeviceFilterPolicy} (hget : getDeviceFilter env getPool fuel = some (.ok policy)) :
    cmdFilter env true getPool setPool fuel args = some { lines := printPolicy policy } := by
  simp only [cmdFilter, hlist, hmodify, hget]
  rfl

-- A device is let in if filtering is off, or by an entry of a category that was named.
def FilterArgs.Admits (args : FilterArgs) (cls sub proto : Byte) : Prop :=
  args.disable = true ∨
    args.denyAll = false ∧
      ∃ c ∈ Filter.categories, c.1 ∈ args.categories ∧ ∃ e ∈ c.2.entries, e.accepts cls sub proto = true

theorem isAllowed_policy (args : FilterArgs) (cls sub proto : Byte) :
    isAllowed (kernelPolicy args.policy) cls sub proto = true ↔ args.Admits cls sub proto := by
  rw [isAllowed_kernelPolicy (length_policy args), FilterArgs.Admits]
  cases hdisable : args.disable with
  | true => simp [FilterArgs.policy, hdisable]
  | false =>
      have hmode : ((args.policy).mode == FilterMode.disabled) = false := by
        simp only [FilterArgs.policy, hdisable]
        rfl
      cases hdeny : args.denyAll with
      | true => simp [FilterArgs.policy, hdisable, hdeny]
      | false =>
          have hentries : args.policy.entries = entriesOf args.categories := by
            simp [FilterArgs.policy, hdisable, hdeny]
          rw [hmode, hentries, Bool.false_or, List.any_eq_true]
          simp only [mem_entriesOf, Bool.false_eq_true, false_or, true_and]
          constructor
          · rintro ⟨e, ⟨c, hc, hid, he⟩, haccepts⟩
            exact ⟨c, hc, hid, e, he, haccepts⟩
          · rintro ⟨c, hc, hid, e, he, haccepts⟩
            exact ⟨e, ⟨c, hc, hid, he⟩, haccepts⟩

-- The command, the driver from then on, and the same command without arguments.
theorem cmdFilter_applies (hlist : args.listCategories = false) (hmodify : args.modify = true)
    (hopen : env.openParameters = .STATUS_SUCCESS) (hassign : env.assignValue = .STATUS_SUCCESS) :
    (∀ id, args.unknown = some id →
      cmdFilter env true getPool setPool fuel args = some { error := some (.unknownCategory id) }) ∧
    (args.unknown = none →
      ∃ bytes,
        cmdFilter env true getPool setPool fuel args =
          some { lines := "Device-type filter updated." :: args.status, stored := some bytes } ∧
        (∀ garbage cls sub proto,
          isAllowed (load garbage (.read REG_BINARY bytes)) cls sub proto = true ↔ args.Admits cls sub proto) ∧
        ∀ (env' : VhciIoctl.Env) getPool' setPool' fuel', env'.filter = .read REG_BINARY bytes → 3 ≤ fuel' →
          cmdFilter env' true getPool' setPool' fuel' {} = some { lines := args.status }) := by
  refine ⟨fun id hid => cmdFilter_unknown getPool setPool hlist hmodify hid, fun hknown => ?_⟩
  have hlength := length_policy args
  have hstore : (VhciIoctl.store env (kernelPolicy args.policy)).1 = .STATUS_SUCCESS := by
    simp [VhciIoctl.store, hopen, hassign]
  have hset : setDeviceFilter env setPool args.policy =
      (none, some (policyBytes args.policy.mode.toByte args.policy.entries)) := by
    rw [setDeviceFilter_eq hlength, if_pos hstore, store_kernelPolicy hlength hstore]
  refine ⟨policyBytes args.policy.mode.toByte args.policy.entries, ?_, fun garbage cls sub proto => ?_, ?_⟩
  · rw [← printPolicy_policy hknown]
    simp only [cmdFilter, hlist, hmodify, makePolicy_eq, hknown, Option.elim_none, hset]
    rfl
  · rw [load_policyBytes garbage (toByte_cases _) hlength]
    exact isAllowed_policy args cls sub proto
  · intro env' getPool' setPool' fuel' hstored hfuel
    have hget := getDeviceFilter_eq hlength hstored getPool' hfuel
    rw [cmdFilter_show getPool' setPool' rfl rfl hget, printPolicy_policy hknown]

theorem cmdFilter_applies_audio :
    ∃ bytes,
      (cmdFilter {} true (fun _ _ => 0) (fun _ => 0) 0
          { categories := ["audio", "hid", "audio"] }).bind Outcome.stored = some bytes ∧
      isAllowed (load (fun _ => 0) (.read REG_BINARY bytes)) 3 1 1 = true ∧
      (cmdFilter { filter := .read REG_BINARY bytes } true (fun _ _ => 0) (fun _ => 0) 3 {}).map
          (fun o => o.lines.take 7) =
        some ["Device-type filter: WHITELIST", "Categories:", "  [x] hid            HID / input (keyboard, mouse)",
          "  [ ] mass_storage   Mass storage (USB drives)", "  [ ] network        Network adapter (CDC/RNDIS/NCM/ECM)",
          "  [ ] wireless       Wireless / Bluetooth radio", "  [x] audio          Audio"] := by
  obtain ⟨bytes, hcmd, hallowed, hshow⟩ :=
    (@cmdFilter_applies { categories := ["audio", "hid", "audio"] } {} (fun _ _ => 0) (fun _ => 0) 0 rfl rfl rfl rfl).2
      (by decide)
  refine ⟨bytes, by rw [hcmd]; rfl, (hallowed _ _ _ _).mpr ?_, ?_⟩
  · exact .inr ⟨rfl, _, List.mem_cons_self, by decide, _, List.mem_cons_self, rfl⟩
  · rw [hshow _ _ _ 3 rfl (le_refl 3)]
    decide

end Command

end Usbip.Cli.Filter
