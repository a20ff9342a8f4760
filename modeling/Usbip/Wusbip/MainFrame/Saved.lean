import Usbip.Wusbip.MainFrame.Theorems

namespace Usbip.Wusbip.MainFrame

open Usbip.Library.Keyed
open Usbip.Libusbip.Persistent (DeviceLocation PersistentDevice Utf asciiUtf)
open Usbip.Wusbip.DeviceTree

variable (env : Env)

section Devices

variable {tree : Tree}

-- The key of a device is that of its row.
def keyOf (device : Text × Row) : Text × Text := (device.1, device.2 .busid)

-- A tree of a window: the first column of a row is its key.
structure IsTree (tree : Tree) : Prop where
  wellFormed : WellFormed tree
  busid : ∀ url busid row, findLeaf url busid tree = some row → row .busid = busid

theorem getDevices_eq (tree : Tree) :
    getDevices tree = ((entries tree).map fun e => (e.1.1, e.2)).filter fun device => !isEmptyRow device.2 := by
  simp [getDevices, entries, List.map_flatMap, Function.comp_def]

theorem IsTree.key_eq (h : IsTree tree) {e : (Text × Text) × Row} (he : e ∈ entries tree) : keyOf (e.1.1, e.2) = e.1 :=
  Prod.ext rfl (h.busid _ _ _ ((mem_entries h.wellFormed e.1 e.2).mp he))

theorem IsTree.mem_getDevices (h : IsTree tree) (url : Text) (row : Row) :
    (url, row) ∈ getDevices tree ↔ findLeaf url (row .busid) tree = some row ∧ isEmptyRow row = false := by
  rw [getDevices_eq, List.mem_filter, Bool.not_eq_true', List.mem_map]
  refine and_congr_left fun _ => ?_
  constructor
  · rintro ⟨e, he, heq⟩
    obtain ⟨rfl, rfl⟩ := Prod.mk.inj heq
    have hfind := (mem_entries h.wellFormed e.1 e.2).mp he
    rwa [h.busid _ _ _ hfind]
  · intro hfind
    exact ⟨((url, row .busid), row), (mem_entries h.wellFormed _ _).mpr hfind, rfl⟩

theorem IsTree.nodup_keys (h : IsTree tree) : ((getDevices tree).map keyOf).Nodup := by
  have hkeys : ((entries tree).map fun e => (e.1.1, e.2)).map keyOf = (entries tree).map Prod.fst := by
    rw [List.map_map]
    exact List.map_congr_left fun e he => h.key_eq he
  have hnodup := nodup_entries h.wellFormed
  rw [← hkeys] at hnodup
  rw [getDevices_eq]
  exact hnodup.sublist (List.filter_sublist.map keyOf)

-- Of the devices, those with a key are the row of the key, if it is not empty.
theorem IsTree.filter_key (h : IsTree tree) (key : Text × Text) :
    ((getDevices tree).filter fun device => keyOf device = key) =
      (((findLeaf key.1 key.2 tree).filter fun row => !isEmptyRow row).map fun row => (key.1, row)).toList := by
  cases hfilled : (findLeaf key.1 key.2 tree).filter fun row => !isEmptyRow row with
  | some row =>
      obtain ⟨hfind, hrow⟩ := Option.filter_eq_some_iff.mp hfilled
      have hkey : keyOf (key.1, row) = key := Prod.ext rfl (h.busid _ _ _ hfind)
      have hmem : (key.1, row) ∈ getDevices tree := by
        rw [h.mem_getDevices, h.busid _ _ _ hfind]
        exact ⟨hfind, by simpa using hrow⟩
      have hfilter := filter_key_of_mem h.nodup_keys hmem
      rwa [hkey] at hfilter
  | none =>
      refine List.filter_eq_nil_iff.mpr fun device hdevice heq => ?_
      obtain rfl := of_decide_eq_true heq
      obtain ⟨hfind, hrow⟩ := (h.mem_getDevices device.1 device.2).mp hdevice
      have hnone := Option.filter_eq_none_iff.mp hfilled device.2 hfind
      simp [hrow] at hnone

end Devices

section Locations

theorem dropWhile_ne {c : Libusbip.Persistent.WChar} {s : Text} (h : c ∈ s) :
    s.dropWhile (· ≠ c) = c :: (s.dropWhile (· ≠ c)).drop 1 := by
  induction s with
  | nil => cases h
  | cons d s ih =>
      by_cases heq : d = c
      · simp [heq]
      · rw [List.dropWhile_cons_of_pos (by simpa using heq)]
        exact ih (List.mem_of_ne_of_mem (Ne.symm heq) h)

theorem splitServerUrl_eq {url hostname service : Text} (h : splitServerUrl url = some (hostname, service)) :
    url = hostname ++ WIDE_COLON :: service := by
  rw [splitServerUrl, Option.ite_none_right_eq_some] at h
  obtain ⟨hmem, heq⟩ := h
  obtain ⟨rfl, rfl⟩ := Prod.mk.inj (Option.some.inj heq)
  have hsplit := @List.takeWhile_append_dropWhile _ (· ≠ WIDE_COLON) url.reverse
  rw [dropWhile_ne (List.mem_reverse.mpr hmem)] at hsplit
  rw [← List.reverse_inj, List.reverse_append, List.reverse_cons, List.reverse_reverse, List.reverse_reverse,
    List.append_assoc, List.singleton_append]
  exact hsplit.symm

variable {utf : Utf}

theorem utf8String_injective (hutf : utf.Converts) {s s' : Text} (hs : (utf.wcharToUtf8 s).isSome = true)
    (hs' : (utf.wcharToUtf8 s').isSome = true) (heq : utf8String utf s = utf8String utf s') : s = s' := by
  obtain ⟨b, hb⟩ := Option.isSome_iff_exists.mp hs
  obtain ⟨b', hb'⟩ := Option.isSome_iff_exists.mp hs'
  rw [utf8String, utf8String, hb, hb', Option.getD_some, Option.getD_some] at heq
  subst heq
  exact Option.some.inj ((hutf.encode b s hb).symm.trans (hutf.encode b s' hb'))

-- The url of the server has a host name and a service, and the texts are valid.
def locates (utf : Utf) (device : Text × Row) : Bool :=
  (splitServerUrl device.1).any (fun server =>
    (utf.wcharToUtf8 server.1).isSome && (utf.wcharToUtf8 server.2).isSome) &&
    (utf.wcharToUtf8 (device.2 .busid)).isSome

theorem locates_eq_true {device : Text × Row} (h : locates utf device = true) :
    ∃ hostname service, splitServerUrl device.1 = some (hostname, service) ∧ (utf.wcharToUtf8 hostname).isSome = true ∧
      (utf.wcharToUtf8 service).isSome = true ∧ (utf.wcharToUtf8 (device.2 .busid)).isSome = true := by
  obtain ⟨hserver, hbusid⟩ := Bool.and_eq_true_iff.mp h
  obtain ⟨⟨hostname, service⟩, hsplit, hvalid⟩ := (Option.any_eq_true _ _).mp hserver
  obtain ⟨hhostname, hservice⟩ := Bool.and_eq_true_iff.mp hvalid
  exact ⟨hostname, service, hsplit, hhostname, hservice, hbusid⟩

def persistentOf (utf : Utf) (device : Text × Row) : PersistentDevice :=
  makePersistentDevice utf device.1 (device.2 .busid) (device.2 .serial)

theorem location_injective (hutf : utf.Converts) {device device' : Text × Row} (h : locates utf device = true)
    (h' : locates utf device' = true) (heq : (persistentOf utf device).location = (persistentOf utf device').location) :
    keyOf device = keyOf device' := by
  obtain ⟨hostname, service, hsplit, hhostname, hservice, hbusid⟩ := locates_eq_true h
  obtain ⟨hostname', service', hsplit', hhostname', hservice', hbusid'⟩ := locates_eq_true h'
  simp only [persistentOf, makePersistentDevice, hsplit, hsplit', Option.getD_some, DeviceLocation.mk.injEq] at heq
  obtain ⟨hhost, hserv, hbus⟩ := heq
  refine Prod.ext ?_ (utf8String_injective hutf hbusid hbusid' hbus)
  rw [keyOf, keyOf, splitServerUrl_eq hsplit, splitServerUrl_eq hsplit',
    utf8String_injective hutf hhostname hhostname' hhost, utf8String_injective hutf hservice hservice' hserv]

end Locations

section Loading

variable {tree : Tree}

-- What is left of a row: what is saved of it, and whether the device is persistent.
def loadedRow (row : Row) : Row := fun col =>
  if savedKeys.contains col then row col
  else if col = .state then stateText (some .unplugged)
  else if col = .persistent ∧ isPersistent row then persistentMark
  else []

theorem contains_persistentOf (hutf : env.utf.Converts) (h : IsTree tree)
    (hlocates : (getDevices tree).all (locates env.utf) = true) {device : Text × Row}
    (hdevice : device ∈ getDevices tree) :
    containsDevice (save env (getDevices tree)).2 (persistentOf env.utf device) = isPersistent device.2 := by
  rw [Bool.eq_iff_iff, containsDevice, List.any_eq_true]
  constructor
  · rintro ⟨pd, hpd, heq⟩
    obtain ⟨other, hother, rfl⟩ := List.mem_map.mp hpd
    obtain ⟨hmem, hpersistent⟩ := List.mem_filter.mp hother
    have hall := List.all_eq_true.mp hlocates
    have hkey := location_injective hutf (hall other hmem) (hall device hdevice) (eq_of_beq heq)
    have hsame := filter_key_of_mem h.nodup_keys hmem
    have hin : device ∈ (getDevices tree).filter fun d => keyOf d = keyOf other :=
      List.mem_filter.mpr ⟨hdevice, decide_eq_true hkey.symm⟩
    rw [hsame, List.mem_singleton] at hin
    rwa [hin]
  · intro hpersistent
    exact ⟨_, List.mem_map_of_mem (List.mem_filter.mpr ⟨hdevice, hpersistent⟩), beq_self_eq_true _⟩

theorem loadRow_saved {persistent : List PersistentDevice} {device : Text × Row}
    (hcontains : containsDevice persistent (persistentOf env.utf device) = isPersistent device.2) :
    loadRow env persistent (savedColumns device.1 device.2) none = some (loadedRow device.2) := by
  have hupdate : updateFromSaved env.utf
      ((savedColumns device.1 device.2).set .state (stateText (some .unplugged)))
      ((noFlags.add savedKeys).add [.state]) persistent [] false =
      if isPersistent device.2 then
        (((savedColumns device.1 device.2).set .state (stateText (some .unplugged))).set .persistent persistentMark,
          ((noFlags.add savedKeys).add [.state]).add [.persistent])
      else
        ((savedColumns device.1 device.2).set .state (stateText (some .unplugged)),
          (noFlags.add savedKeys).add [.state]) := by
    rw [← hcontains]
    rfl
  simp only [loadRow]
  rw [if_neg (by simp), hupdate]
  refine congrArg some (funext fun col => ?_)
  cases hpersistent : isPersistent device.2 with
  | true => cases col <;> simp [patch, loadedRow, savedColumns, savedKeys, newRow, noFlags, hpersistent]
  | false => cases col <;> simp [patch, loadedRow, savedColumns, savedKeys, newRow, noFlags, hpersistent]

-- What is saved of a device is read back as it was written: it names no variable of the environment.
def readsBack (device : Text × Row) : Bool :=
  env.readConfig device.1 == device.1 && savedKeys.all fun col => env.readConfig (device.2 col) == device.2 col

theorem savedColumns_readConfig {device : Text × Row} (h : readsBack env device = true) :
    savedColumns (env.readConfig (savedColumns device.1 device.2).url)
        (fun col => env.readConfig ((savedColumns device.1 device.2).text col)) =
      savedColumns device.1 device.2 := by
  obtain ⟨hurl, hcols⟩ := Bool.and_eq_true_iff.mp h
  simp only [savedColumns, DeviceColumns.mk.injEq, eq_of_beq hurl, true_and]
  funext col
  cases hcol : savedKeys.contains col with
  | true => simpa using List.all_eq_true.mp hcols col (List.contains_iff_mem.mp hcol)
  | false => simp

-- The groups as they are read back.
theorem getSaved_save {devices : List (Text × Row)} (hreads : devices.all (readsBack env) = true) :
    getSaved env (save env devices).1 =
      (devices.filter fun device => !device.1.isEmpty && !(device.2 .busid).isEmpty).map fun device =>
        savedColumns device.1 device.2 := by
  have hagain : (save env devices).1.map (fun group =>
      savedColumns (env.readConfig group.url) fun col => env.readConfig (group.text col)) =
      devices.map fun device => savedColumns device.1 device.2 := by
    rw [save, List.map_map]
    exact List.map_congr_left fun device hdevice =>
      savedColumns_readConfig env (List.all_eq_true.mp hreads device hdevice)
  rw [getSaved, hagain, List.filter_map]
  rfl

theorem filter_getSaved_save {devices : List (Text × Row)} (hreads : devices.all (readsBack env) = true)
    (key : Text × Text) :
    ((getSaved env (save env devices).1).filter fun dc => (dc.url, dc.text .busid) = key) =
      if key.1 = [] ∨ key.2 = [] then []
      else (devices.filter fun device => keyOf device = key).map fun device => savedColumns device.1 device.2 := by
  rw [getSaved_save env hreads, List.filter_map, List.filter_filter]
  have hsame : ∀ device : Text × Row,
      ((savedColumns device.1 device.2).url, (savedColumns device.1 device.2).text .busid) = keyOf device :=
    fun _ => rfl
  split
  · next hkey =>
      refine List.map_eq_nil_iff.mpr (List.filter_eq_nil_iff.mpr fun device _ hthere => ?_)
      simp only [Function.comp_apply, hsame, Bool.and_eq_true, decide_eq_true_eq, Bool.not_eq_true',
        List.isEmpty_eq_false_iff] at hthere
      obtain ⟨rfl, hurl, hbusid⟩ := hthere
      exact hkey.elim hurl hbusid
  · next hkey =>
      refine congrArg _ (List.filter_congr fun device _ => ?_)
      rw [Bool.eq_iff_iff]
      simp only [Function.comp_apply, hsame, Bool.and_eq_true, decide_eq_true_eq, Bool.not_eq_true',
        List.isEmpty_eq_false_iff, and_iff_left_iff_imp]
      rintro rfl
      exact not_or.mp hkey

-- What is loaded of the devices that were saved, in whatever order.
theorem findLeaf_onLoad_save (hutf : env.utf.Converts) (h : IsTree tree)
    (hlocates : (getDevices tree).all (locates env.utf) = true)
    (hreads : (getDevices tree).all (readsBack env) = true) {groups : List DeviceColumns}
    (hperm : groups.Perm (save env (getDevices tree)).1) (key : Text × Text) :
    findLeaf key.1 key.2 (onLoad env groups (save env (getDevices tree)).2 []) =
      if key.1 = [] ∨ key.2 = [] then none
      else ((findLeaf key.1 key.2 tree).filter fun row => !isEmptyRow row).map loadedRow := by
  have hload := foldl_changes (fun _ dc ht => changes_loadDevice env (save env (getDevices tree)).2 ht dc)
    (getSaved env groups) wellFormed_nil key
  have hsaved : (getSaved env groups).Perm (getSaved env (save env (getDevices tree)).1) := (hperm.map _).filter _
  have hfilter := hsaved.filter fun dc => decide ((dc.url, dc.text .busid) = key)
  rw [filter_getSaved_save env hreads] at hfilter
  rw [onLoad, hload]
  split at hfilter
  · next hkey =>
      rw [hfilter.eq_nil, if_pos hkey]
      rfl
  · next hkey =>
      rw [if_neg hkey]
      rw [h.filter_key] at hfilter
      cases hfilled : (findLeaf key.1 key.2 tree).filter fun row => !isEmptyRow row with
      | none =>
          rw [hfilled] at hfilter
          rw [hfilter.eq_nil]
          rfl
      | some row =>
          rw [hfilled] at hfilter
          rw [hfilter.eq_singleton]
          obtain ⟨hfind, hrow⟩ := Option.filter_eq_some_iff.mp hfilled
          have hmem : (key.1, row) ∈ getDevices tree := by
            rw [h.mem_getDevices, h.busid _ _ _ hfind]
            exact ⟨hfind, by simpa using hrow⟩
          exact loadRow_saved env (contains_persistentOf env hutf h hlocates hmem)

end Loading

section Restart

variable {groups : List DeviceColumns} {actions : List Action}

theorem isTree_run (hkeeps : env.KeepsTexts) (hgroups : ∀ group ∈ groups, group.text .devid ≠ [])
    (hreal : ∀ a ∈ actions, a.isReal = true) :
    IsTree (run env { groups := groups } actions).tree := by
  have hinit : StateShows (fun _ => none) ({ groups := groups } : State) := ⟨hgroups, treeShows_nil⟩
  obtain ⟨-, hwf, hrows⟩ := stateShows_run env hkeeps hinit hreal
  refine ⟨hwf, fun url busid row hrow => ?_⟩
  obtain ⟨hbusid, -⟩ := hrows (url, busid)
  rwa [hrow] at hbusid

-- All devices are saved, and the window is opened again while none is attached, whatever the order in which the
-- groups are read. The driver gives the list that it was given.
theorem restart_loads (hutf : env.utf.Converts) (hkeeps : env.KeepsTexts)
    (hgroups : ∀ group ∈ groups, group.text .devid ≠ []) (hreal : ∀ a ∈ actions, a.isReal = true)
    (hlocates : (getDevices (run env { groups := groups } actions).tree).all (locates env.utf) = true)
    (hreads : (getDevices (run env { groups := groups } actions).tree).all (readsBack env) = true) :
    let s := run env { groups := groups } (actions ++ [.save fun _ => true])
    let persistent := (save env (getDevices s.tree)).2
    ∀ order : List DeviceColumns, order.Perm s.groups → ∀ url busid,
      findLeaf url busid (run env { groups := order } [.reload persistent (some [])]).tree =
        if url = [] ∨ busid = [] then none
        else ((findLeaf url busid s.tree).filter fun row => !isEmptyRow row).map loadedRow := by
  intro s persistent order horder url busid
  have hsaved : s = { run env { groups := groups } actions with
      groups := (save env (getDevices (run env { groups := groups } actions).tree)).1 } := by
    simp only [s, run, List.foldl_append, List.foldl_cons, List.foldl_nil, step, List.filter_true]
  have hperm : order.Perm (save env (getDevices (run env { groups := groups } actions).tree)).1 := by
    rwa [hsaved] at horder
  have hloaded := findLeaf_onLoad_save env hutf (isTree_run env hkeeps hgroups hreal) hlocates hreads hperm (url, busid)
  simp only [persistent, hsaved]
  exact hloaded

section TwoSources

def severalSources : List Action :=
  twoSources ++ [.toggleAuto (ascii "h:32") (ascii "1-1"), .editNotes (ascii "h:32") (ascii "1-1") (ascii "disk")]

theorem restart_loads_twoSources :
    let s := run asciiEnv {} (severalSources ++ [.save fun _ => true])
    (findLeaf (ascii "h:32") (ascii "1-1")
        (run asciiEnv { groups := s.groups } [.reload (save asciiEnv (getDevices s.tree)).2 (some [])]).tree).map
        (fun row => (row .notes, row .persistent, row .state)) =
      some (ascii "disk", persistentMark, stateText (some .unplugged)) := by
  intro s
  rw [restart_loads asciiEnv Libusbip.Persistent.asciiUtf_converts (fun _ h => h)
    (fun _ h => absurd h List.not_mem_nil) (by decide) (by decide) (by decide) _ (.refl _)]
  rfl

end TwoSources

end Restart

end Usbip.Wusbip.MainFrame
