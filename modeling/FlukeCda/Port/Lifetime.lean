import FlukeCda.Port.Kernel
import Mathlib.Data.Multiset.MapFold
import Mathlib.Data.Multiset.ZeroCons
import Mathlib.Logic.Function.Basic

namespace FlukeCda.Port

def nrDevices : Nat := 0x100
def maxInttimerDevices : Nat := 0x100

/-- A device pointer: null, an error code, or a node with its minor. -/
inductive DevPtr
  | null
  | err
  | node (minor : Nat)

/-- The fields of `struct fgpio_port` and `struct inttimer_port` that record
what has been acquired, as `kzalloc` leaves them. -/
structure PortData where
  minor : Int := 0
  dev : DevPtr := .null
  start : Nat := 0
  mapbase : Option Nat := none
  cdevAdded : Bool := false

/-- How the acquisitions of one probe turn out, and what the first word read
from the structure after it has been freed happens to be. -/
structure PortOutcomes where
  kzalloc : Bool
  idaFails : Bool
  deviceCreate : Bool
  address : Int
  start : Nat
  region : Bool
  ioremap : Option Nat
  cdevAdd : Int
  stale : Int

/-- What the driver holds in the kernel's tables, the driver data of each device
and the devices that are bound. -/
structure Tables (ι : Type) where
  minors : Multiset Nat
  nodes : Multiset Nat
  regions : Multiset Nat
  mappings : Multiset Nat
  cdevs : Multiset ι
  drvdata : ι → Option PortData
  bound : Multiset ι

def ENODEV : Int := 19
def ENOSPC : Int := 28

section
variable {ι : Type} [DecidableEq ι]

def Tables.idle : Tables ι := ⟨0, 0, 0, 0, 0, fun _ => none, 0⟩

/-- The smallest free minor of the range, or a negative error code. -/
def idaSimpleGet (range : Nat) (fails : Bool) (minors : Multiset Nat) : Int :=
  if fails then -ENOMEM
  else match (List.range range).find? (· ∉ minors) with
    | some minor => minor
    | none => -ENOSPC

/-- Giving back one entry of a table; there is no result if it is not there. -/
def release {α : Type} [DecidableEq α] (a : α) (table : Multiset α) : Option (Multiset α) :=
  if a ∈ table then some (table.erase a) else none

namespace Tables
variable (w : Tables ι)

def setData (d : ι) (data : Option PortData) : Tables ι :=
  { w with drvdata := Function.update w.drvdata d data }

def cdevDel (d : ι) : Option (Tables ι) := (release d w.cdevs).map fun cdevs => { w with cdevs }

def iounmap (address : Nat) : Option (Tables ι) :=
  (release address w.mappings).map fun mappings => { w with mappings }

def releaseMemRegion (start : Nat) : Option (Tables ι) :=
  (release start w.regions).map fun regions => { w with regions }

def deviceDestroy (minor : Nat) : Option (Tables ι) := (release minor w.nodes).map fun nodes => { w with nodes }

def idaSimpleRemove (minor : Nat) : Option (Tables ι) :=
  (release minor w.minors).map fun minors => { w with minors }

end Tables

/-- Body of the remove function of both drivers: the fields say what there is
to undo. There is no result where a null pointer is followed, or something is
released that is not held. -/
def portRemove (d : ι) (w : Tables ι) : Option (Tables ι) :=
  match w.drvdata d with
  | none => some w
  | some port => do
    let w ← if port.cdevAdded then w.cdevDel d else some w
    let w ← match port.mapbase with
      | some address => w.iounmap address
      | none => some w
    let w ← if port.start ≠ 0 then w.releaseMemRegion port.start else some w
    -- IS_ERR does not hold of a null pointer
    let w ← match port.dev with
      | .err => some w
      | .null => none
      | .node minor => w.deviceDestroy minor
    let w ← if port.minor ≥ 0 then w.idaSimpleRemove port.minor.toNat else some w
    some (w.setData d none)

def flukeGpioRemove (d : ι) (w : Tables ι) : Option (Tables ι) := portRemove d w

def altInttimerRemove (d : ι) (w : Tables ι) : Option (Tables ι) := portRemove d w

/-- Body of the probe function of both drivers, which differ in the range their
minors come from. -/
def portProbe (range : Nat) (d : ι) (o : PortOutcomes) (w : Tables ι) : Option (Int × Tables ι) :=
  if o.kzalloc = false then some (-ENOMEM, w) else
  let port : PortData := {}
  let w := w.setData d (some port)
  let minor := idaSimpleGet range o.idaFails w.minors
  let port := { port with minor }
  let w := w.setData d (some port)
  if minor < 0 then do
    let w ← portRemove d w
    -- the structure has been freed when its minor is read for the result
    some (o.stale, w)
  else
  let w := { w with minors := minor.toNat ::ₘ w.minors }
  let port := { port with dev := if o.deviceCreate then .node minor.toNat else .err }
  let w := w.setData d (some port)
  if o.deviceCreate = false then do
    let w ← portRemove d w
    some (o.stale, w)
  else
  let w := { w with nodes := minor.toNat ::ₘ w.nodes }
  if o.address ≠ 0 then do
    let w ← portRemove d w
    some (o.address, w)
  else
  let port := { port with start := o.start }
  let w := w.setData d (some port)
  if o.region = false then do
    let w ← portRemove d (w.setData d (some { port with start := 0 }))
    some (-ENODEV, w)
  else
  let w := { w with regions := o.start ::ₘ w.regions }
  let port := { port with mapbase := o.ioremap }
  let w := w.setData d (some port)
  let w := { w with mappings := w.mappings + Multiset.ofList o.ioremap.toList }
  let port := { port with cdevAdded := decide (o.cdevAdd = 0) }
  let w := w.setData d (some port)
  let w := if o.cdevAdd = 0 then { w with cdevs := d ::ₘ w.cdevs } else w
  some (o.cdevAdd, w)

def flukeGpioProbe (d : ι) (o : PortOutcomes) (w : Tables ι) : Option (Int × Tables ι) :=
  portProbe nrDevices d o w

def altInttimerProbe (d : ι) (o : PortOutcomes) (w : Tables ι) : Option (Int × Tables ι) :=
  portProbe maxInttimerDevices d o w

inductive Driver
  | flukeGpio
  | altInttimer

def Driver.minors : Driver → Nat
  | flukeGpio => nrDevices
  | altInttimer => maxInttimerDevices

def Driver.probe : Driver → ι → PortOutcomes → Tables ι → Option (Int × Tables ι)
  | flukeGpio => flukeGpioProbe
  | altInttimer => altInttimerProbe

def Driver.remove : Driver → ι → Tables ι → Option (Tables ι)
  | flukeGpio => flukeGpioRemove
  | altInttimer => altInttimerRemove

theorem Driver.probe_eq (driver : Driver) (d : ι) (o : PortOutcomes) (w : Tables ι) :
    driver.probe d o w = portProbe driver.minors d o w := by
  cases driver <;> rfl

theorem Driver.remove_eq (driver : Driver) (d : ι) (w : Tables ι) : driver.remove d w = portRemove d w := by
  cases driver <;> rfl

inductive LifetimeCall (ι : Type)
  | probe (d : ι) (o : PortOutcomes)
  | remove (d : ι)

/-- A call of the driver core, which probes only what is not bound and removes
only what is; a device is bound when its probe has returned 0. -/
def Tables.step (driver : Driver) (w : Tables ι) : LifetimeCall ι → Option (Tables ι)
  | .probe d o =>
    if d ∈ w.bound then some w
    else (driver.probe d o w).map fun (result, w) => if result = 0 then { w with bound := d ::ₘ w.bound } else w
  | .remove d =>
    if d ∈ w.bound then (driver.remove d w).map fun w => { w with bound := w.bound.erase d } else some w

/-- What one bound device holds. -/
structure Holding where
  minor : Nat
  start : Nat
  address : Nat

def Holding.data (holding : Holding) : PortData :=
  { minor := holding.minor, dev := .node holding.minor, start := holding.start,
    mapbase := some holding.address, cdevAdded := true }

/-- Every table holds exactly what the bound devices hold, one entry of each
kind for each of them, and no minor twice. -/
structure AccountedBy (w : Tables ι) (holds : ι → Holding) : Prop where
  data : ∀ d ∈ w.bound, w.drvdata d = some (holds d).data
  minors : w.minors = w.bound.map fun d => (holds d).minor
  nodes : w.nodes = w.bound.map fun d => (holds d).minor
  regions : w.regions = w.bound.map fun d => (holds d).start
  mappings : w.mappings = w.bound.map fun d => (holds d).address
  cdevs : w.cdevs = w.bound
  once : w.bound.Nodup
  apart : w.minors.Nodup

def Accounted (w : Tables ι) : Prop := ∃ holds, AccountedBy w holds

theorem release_cons {α : Type} [DecidableEq α] (a : α) (table : Multiset α) :
    release a (a ::ₘ table) = some table := by
  rw [release, if_pos (Multiset.mem_cons_self a table), Multiset.erase_cons_head]

theorem idaSimpleGet_range {range : Nat} {fails : Bool} {minors : Multiset Nat}
    (granted : 0 ≤ idaSimpleGet range fails minors) :
    (idaSimpleGet range fails minors).toNat ∉ minors := by
  unfold idaSimpleGet at granted ⊢
  split_ifs at granted ⊢
  · exact absurd granted (by decide)
  · cases found : (List.range range).find? (· ∉ minors) with
    | none =>
      rw [found] at granted
      exact absurd granted (by decide)
    | some minor => simpa using List.find?_some found

/-- Driver data of a device that is not bound does not count. -/
theorem AccountedBy.setData {w : Tables ι} {holds : ι → Holding} (accounted : AccountedBy w holds) {d : ι}
    (unbound : d ∉ w.bound) (data : Option PortData) : AccountedBy (w.setData d data) holds := by
  refine { accounted with data := fun e member => ?_ }
  have other : e ≠ d := fun same => unbound (same ▸ member)
  exact (Function.update_of_ne other _ _).trans (accounted.data e member)

/-- The device is bound, with everything it holds on top of the tables. -/
def Tables.bind (w : Tables ι) (d : ι) (holding : Holding) : Tables ι where
  minors := holding.minor ::ₘ w.minors
  nodes := holding.minor ::ₘ w.nodes
  regions := holding.start ::ₘ w.regions
  mappings := holding.address ::ₘ w.mappings
  cdevs := d ::ₘ w.cdevs
  drvdata := Function.update w.drvdata d (some holding.data)
  bound := d ::ₘ w.bound

theorem AccountedBy.bind {w : Tables ι} {holds : ι → Holding} (accounted : AccountedBy w holds) {d : ι}
    (unbound : d ∉ w.bound) (holding : Holding) (free : holding.minor ∉ w.minors) :
    Accounted (w.bind d holding) := by
  refine ⟨Function.update holds d holding, ?_⟩
  have others : ∀ {β : Type} (f : Holding → β),
      (w.bound.map fun e => f (Function.update holds d holding e)) = w.bound.map fun e => f (holds e) := by
    intro β f
    refine Multiset.map_congr rfl fun e member => ?_
    have other : e ≠ d := fun same => unbound (same ▸ member)
    rw [Function.update_of_ne other]
  refine ⟨fun e member => ?_, ?_, ?_, ?_, ?_, ?_, ?_, ?_⟩
  · by_cases same : e = d
    · subst same
      simp only [Tables.bind, Function.update_self]
    · have bound : e ∈ w.bound := (Multiset.mem_cons.mp member).resolve_left same
      simp only [Tables.bind, Function.update_of_ne same]
      exact accounted.data e bound
  · simp only [Tables.bind, Multiset.map_cons, Function.update_self, others Holding.minor, accounted.minors]
  · simp only [Tables.bind, Multiset.map_cons, Function.update_self, others Holding.minor, accounted.nodes]
  · simp only [Tables.bind, Multiset.map_cons, Function.update_self, others Holding.start, accounted.regions]
  · simp only [Tables.bind, Multiset.map_cons, Function.update_self, others Holding.address, accounted.mappings]
  · simp only [Tables.bind, accounted.cdevs]
  · exact Multiset.nodup_cons.mpr ⟨unbound, accounted.once⟩
  · exact Multiset.nodup_cons.mpr ⟨free, accounted.apart⟩

section Probe
variable (driver : Driver) (d : ι) (o : PortOutcomes) (w : Tables ι)

/-- The minor the probe would get. -/
def probeMinor : Int := idaSimpleGet driver.minors o.idaFails w.minors

theorem portProbe_noMemory (kzalloc : o.kzalloc = false) :
    portProbe driver.minors d o w = some (-ENOMEM, w) := by
  rw [portProbe, if_pos kzalloc]

/-- Without a minor, remove follows the null pointer in `dev`. -/
theorem portProbe_noMinor (kzalloc : o.kzalloc = true) (none : probeMinor driver o w < 0) :
    portProbe driver.minors d o w = .none := by
  unfold probeMinor at none
  simp [portProbe, kzalloc, Tables.setData, none, portRemove]

theorem portProbe_noNode (kzalloc : o.kzalloc = true) (minor : 0 ≤ probeMinor driver o w)
    (deviceCreate : o.deviceCreate = false) :
    portProbe driver.minors d o w = some (o.stale, w.setData d none) := by
  unfold probeMinor at minor
  simp [portProbe, kzalloc, Tables.setData, Int.not_lt.mpr minor, deviceCreate, portRemove,
    Tables.idaSimpleRemove, release_cons, minor]

theorem portProbe_noAddress (kzalloc : o.kzalloc = true) (minor : 0 ≤ probeMinor driver o w)
    (deviceCreate : o.deviceCreate = true) (address : o.address ≠ 0) :
    portProbe driver.minors d o w = some (o.address, w.setData d none) := by
  unfold probeMinor at minor
  simp [portProbe, kzalloc, Tables.setData, Int.not_lt.mpr minor, deviceCreate, address, portRemove,
    Tables.idaSimpleRemove, Tables.deviceDestroy, release_cons, minor]

theorem portProbe_noRegion (kzalloc : o.kzalloc = true) (minor : 0 ≤ probeMinor driver o w)
    (deviceCreate : o.deviceCreate = true) (address : o.address = 0) (region : o.region = false) :
    portProbe driver.minors d o w = some (-ENODEV, w.setData d none) := by
  unfold probeMinor at minor
  simp [portProbe, kzalloc, Tables.setData, Int.not_lt.mpr minor, deviceCreate, address, region, portRemove,
    Tables.idaSimpleRemove, Tables.deviceDestroy, release_cons, minor]

/-- From the granted region on nothing is undone. -/
theorem portProbe_region (kzalloc : o.kzalloc = true) (minor : 0 ≤ probeMinor driver o w)
    (deviceCreate : o.deviceCreate = true) (address : o.address = 0) (region : o.region = true) :
    portProbe driver.minors d o w = some (o.cdevAdd,
      { minors := (probeMinor driver o w).toNat ::ₘ w.minors
        nodes := (probeMinor driver o w).toNat ::ₘ w.nodes
        regions := o.start ::ₘ w.regions
        mappings := w.mappings + Multiset.ofList o.ioremap.toList
        cdevs := if o.cdevAdd = 0 then d ::ₘ w.cdevs else w.cdevs
        drvdata := Function.update w.drvdata d (some
          { minor := probeMinor driver o w, dev := .node (probeMinor driver o w).toNat,
            start := o.start, mapbase := o.ioremap,
            cdevAdded := decide (o.cdevAdd = 0) })
        bound := w.bound }) := by
  unfold probeMinor at minor ⊢
  by_cases added : o.cdevAdd = 0 <;>
    simp [portProbe, kzalloc, Tables.setData, Int.not_lt.mpr minor, deviceCreate, address, region, added]

/-- What must not happen: a probe that gets no minor, a probe without a node
whose freed structure then reads as 0, a probe that goes on without a mapping
or fails behind its region, and the removal of a region at address 0. -/
def Harmless : LifetimeCall ι → Prop
  | .probe d o => d ∉ w.bound → o.kzalloc = true → 0 ≤ probeMinor driver o w ∧
      if o.deviceCreate = false then o.stale ≠ 0
      else o.address = 0 → o.region = true → o.ioremap.isSome = true ∧ o.cdevAdd = 0
  | .remove d => d ∈ w.bound → ∀ port, w.drvdata d = some port → port.start ≠ 0

/-- The tables after a call, if it has no fault, account for the bound devices. -/
def StepAccounted (call : LifetimeCall ι) : Prop := ∃ v, w.step driver call = some v ∧ Accounted v

variable {driver d o w}

theorem probe_step (unbound : d ∉ w.bound) {result : Int} {v : Tables ι}
    (ran : portProbe driver.minors d o w = some (result, v)) :
    w.step driver (.probe d o) = some (if result = 0 then { v with bound := d ::ₘ v.bound } else v) := by
  rw [Tables.step, if_neg unbound, driver.probe_eq, ran, Option.map_some]

theorem remove_step (driver : Driver) (bound : d ∈ w.bound) {v : Tables ι} (ran : portRemove d w = some v) :
    w.step driver (.remove d) = some { v with bound := v.bound.erase d } := by
  rw [Tables.step, if_pos bound, driver.remove_eq, ran, Option.map_some]

/-- A probe that fails and has given everything back. -/
theorem undone_accounted (unbound : d ∉ w.bound) (accounted : Accounted w) {result : Int}
    (ran : portProbe driver.minors d o w = some (result, w.setData d none)) :
    StepAccounted driver w (.probe d o) ↔ result ≠ 0 := by
  have stepped := probe_step unbound ran
  by_cases zero : result = 0
  · rw [if_pos zero] at stepped
    refine iff_of_false ?_ (not_not.mpr zero)
    rintro ⟨v, stepped', holds, accounted'⟩
    cases stepped.symm.trans stepped'
    have data := accounted'.data d (Multiset.mem_cons_self _ _)
    simp [Tables.setData] at data
  · rw [if_neg zero] at stepped
    obtain ⟨holds, accountedBy⟩ := accounted
    exact iff_of_true ⟨_, stepped, holds, accountedBy.setData unbound none⟩ zero

omit [DecidableEq ι] in
theorem Accounted.card_minors (accounted : Accounted w) : w.minors.card = w.bound.card := by
  obtain ⟨holds, accountedBy⟩ := accounted
  rw [accountedBy.minors, Multiset.card_map]

omit [DecidableEq ι] in
theorem Accounted.card_regions (accounted : Accounted w) : w.regions.card = w.bound.card := by
  obtain ⟨holds, accountedBy⟩ := accounted
  rw [accountedBy.regions, Multiset.card_map]

theorem region_accounted (unbound : d ∉ w.bound) (accounted : Accounted w) (kzalloc : o.kzalloc = true)
    (minor : 0 ≤ probeMinor driver o w) (deviceCreate : o.deviceCreate = true) (address : o.address = 0)
    (region : o.region = true) :
    StepAccounted driver w (.probe d o) ↔ o.ioremap.isSome = true ∧ o.cdevAdd = 0 := by
  have stepped := probe_step unbound (portProbe_region driver d o w kzalloc minor deviceCreate address region)
  by_cases added : o.cdevAdd = 0
  · rw [if_pos added] at stepped
    cases mapped : o.ioremap with
    | none =>
      refine iff_of_false ?_ (by simp)
      rintro ⟨v, stepped', holds, accounted'⟩
      cases stepped.symm.trans stepped'
      have data := accounted'.data d (Multiset.mem_cons_self _ _)
      simp [Holding.data, mapped] at data
    | some virtual =>
      refine iff_of_true ⟨_, stepped, ?_⟩ ⟨rfl, added⟩
      obtain ⟨holds, accountedBy⟩ := accounted
      have free : (probeMinor driver o w).toNat ∉ w.minors := idaSimpleGet_range minor
      have bound := accountedBy.bind unbound ⟨(probeMinor driver o w).toNat, o.start, virtual⟩ free
      convert bound using 1
      simp only [Tables.bind, Holding.data, added, mapped, Int.toNat_of_nonneg minor, if_true, decide_true,
        Option.toList_some, Multiset.coe_singleton]
      rw [Multiset.add_comm, Multiset.singleton_add]
  · rw [if_neg added] at stepped
    refine iff_of_false ?_ fun both => added both.2
    rintro ⟨v, stepped', accounted'⟩
    cases stepped.symm.trans stepped'
    have now := accounted'.card_minors
    have before := accounted.card_minors
    simp only [Multiset.card_cons] at now
    omega

theorem probe_accounted_iff (accounted : Accounted w) :
    StepAccounted driver w (.probe d o) ↔ Harmless driver w (.probe d o) := by
  unfold Harmless
  by_cases bound : d ∈ w.bound
  · exact iff_of_true ⟨w, by rw [Tables.step, if_pos bound], accounted⟩ fun unbound => absurd bound unbound
  by_cases kzalloc : o.kzalloc = false
  · have stepped := probe_step bound (portProbe_noMemory driver d o w kzalloc)
    rw [if_neg (by decide)] at stepped
    exact iff_of_true ⟨w, stepped, accounted⟩ fun _ granted => absurd granted (by simp [kzalloc])
  rw [Bool.not_eq_false] at kzalloc
  simp only [bound, not_false_eq_true, kzalloc, forall_const]
  by_cases minor : 0 ≤ probeMinor driver o w
  · simp only [minor, true_and]
    by_cases deviceCreate : o.deviceCreate = false
    · rw [if_pos deviceCreate]
      exact undone_accounted bound accounted (portProbe_noNode driver d o w kzalloc minor deviceCreate)
    rw [if_neg deviceCreate]
    rw [Bool.not_eq_false] at deviceCreate
    by_cases address : o.address = 0
    · by_cases region : o.region = true
      · simp only [address, region, forall_const]
        exact region_accounted bound accounted kzalloc minor deviceCreate address region
      · rw [Bool.not_eq_true] at region
        have undone := undone_accounted bound accounted
          (portProbe_noRegion driver d o w kzalloc minor deviceCreate address region)
        simpa [region, ENODEV] using undone
    · have undone := undone_accounted bound accounted
        (portProbe_noAddress driver d o w kzalloc minor deviceCreate address)
      simpa [address] using undone
  · simp only [minor, false_and, iff_false]
    rintro ⟨v, stepped, _⟩
    rw [Tables.step, if_neg bound, driver.probe_eq, portProbe_noMinor driver d o w kzalloc
      (by omega)] at stepped
    simp at stepped

/-- Removing a device that holds one of everything. -/
theorem portRemove_bound {holding : Holding} {minors nodes regions mappings : Multiset Nat} {cdevs : Multiset ι}
    (data : w.drvdata d = some holding.data) (heldMinor : w.minors = holding.minor ::ₘ minors)
    (heldNode : w.nodes = holding.minor ::ₘ nodes) (heldRegion : w.regions = holding.start ::ₘ regions)
    (heldMapping : w.mappings = holding.address ::ₘ mappings) (heldCdev : w.cdevs = d ::ₘ cdevs) :
    portRemove d w = some
      { minors, nodes, mappings, cdevs, bound := w.bound
        regions := if holding.start ≠ 0 then regions else holding.start ::ₘ regions
        drvdata := Function.update w.drvdata d none } := by
  by_cases start : holding.start = 0 <;>
    simp [portRemove, data, Holding.data, Tables.cdevDel, Tables.iounmap, Tables.releaseMemRegion,
      Tables.deviceDestroy, Tables.idaSimpleRemove, Tables.setData, heldMinor, heldNode, heldRegion,
      heldMapping, heldCdev, release_cons, start]

theorem remove_accounted_iff (accounted : Accounted w) :
    StepAccounted driver w (.remove d) ↔ Harmless driver w (.remove d) := by
  unfold Harmless
  by_cases bound : d ∈ w.bound
  · obtain ⟨holds, accountedBy⟩ := accounted
    have data := accountedBy.data d bound
    obtain ⟨rest, split⟩ := Multiset.exists_cons_of_mem bound
    obtain ⟨_, minors, nodes, regions, mappings, cdevs, once, apart⟩ := id accountedBy
    rw [minors] at apart
    rw [split] at minors nodes regions mappings cdevs once apart
    rw [Multiset.map_cons] at minors nodes regions mappings apart
    have removed := portRemove_bound data minors nodes regions mappings cdevs
    have stepped := remove_step driver bound removed
    rw [split, Multiset.erase_cons_head] at stepped
    simp only [bound, data, Option.some.injEq, forall_eq', forall_const]
    change _ ↔ (holds d).start ≠ 0
    by_cases start : (holds d).start ≠ 0
    · refine iff_of_true ⟨_, stepped, holds, ?_⟩ start
      obtain ⟨gone, once⟩ := Multiset.nodup_cons.mp once
      refine ⟨fun e member => ?_, rfl, rfl, if_pos start, rfl, rfl, once, (Multiset.nodup_cons.mp apart).2⟩
      have other : e ≠ d := fun same => gone (same ▸ member)
      refine (Function.update_of_ne other _ _).trans (accountedBy.data e ?_)
      rw [split]
      exact Multiset.mem_cons_of_mem member
    · refine iff_of_false ?_ start
      rintro ⟨v, stepped', accounted'⟩
      cases stepped.symm.trans stepped'
      have count := accounted'.card_regions
      simp [start] at count
  · exact iff_of_true ⟨w, by rw [Tables.step, if_neg bound], accounted⟩ fun member => absurd member bound

end Probe

/-- The tables account for the bound devices at the start and after every call. -/
def AccountedRun (driver : Driver) : List (LifetimeCall ι) → Tables ι → Prop
  | [], w => Accounted w
  | call :: rest, w => Accounted w ∧ ∃ v, w.step driver call = some v ∧ AccountedRun driver rest v

def HarmlessRun (driver : Driver) : List (LifetimeCall ι) → Tables ι → Prop
  | [], _ => True
  | call :: rest, w => Harmless driver w call ∧ ∀ v, w.step driver call = some v → HarmlessRun driver rest v

theorem step_accounted_iff {driver : Driver} {w : Tables ι} (accounted : Accounted w) (call : LifetimeCall ι) :
    StepAccounted driver w call ↔ Harmless driver w call := by
  cases call with
  | probe d o => exact probe_accounted_iff accounted
  | remove d => exact remove_accounted_iff accounted

theorem run_accounted_iff {driver : Driver} {calls : List (LifetimeCall ι)} {w : Tables ι}
    (accounted : Accounted w) :
    AccountedRun driver calls w ↔ HarmlessRun driver calls w := by
  induction calls generalizing w with
  | nil => exact iff_of_true accounted trivial
  | cons call rest ih =>
    simp only [AccountedRun, HarmlessRun, accounted, true_and, ← step_accounted_iff accounted call]
    constructor
    · rintro ⟨v, stepped, run⟩
      have accounted' : Accounted v := by
        cases rest with
        | nil => exact run
        | cons => exact run.1
      refine ⟨⟨v, stepped, accounted'⟩, fun u stepped' => ?_⟩
      cases stepped.symm.trans stepped'
      exact (ih accounted').mp run
    · rintro ⟨⟨v, stepped, accounted'⟩, harmless⟩
      exact ⟨v, stepped, (ih accounted').mpr (harmless v stepped)⟩

omit [DecidableEq ι] in
theorem idle_accounted : Accounted (Tables.idle : Tables ι) :=
  ⟨fun _ => ⟨0, 0, 0⟩, fun d member => absurd member (Multiset.notMem_zero d), rfl, rfl, rfl, rfl,
    rfl, Multiset.nodup_zero,
    Multiset.nodup_zero⟩

/-- Over every history of probes and removes, the tables are in order after
every call exactly as long as every call is harmless. -/
theorem lifetime_accounted_iff (driver : Driver) (calls : List (LifetimeCall ι)) :
    AccountedRun driver calls .idle ↔ HarmlessRun driver calls .idle :=
  run_accounted_iff idle_accounted

end

/-- Everything is granted but the character device. -/
def cdevRefused : PortOutcomes := ⟨true, false, true, 0, 0xff200000, true, some 0xf0000000, -16, 0⟩

/-- No minor is granted. -/
def minorRefused : PortOutcomes := ⟨true, true, true, 0, 0xff200000, true, some 0xf0000000, 0, 0⟩

/-- A probe without a minor faults, and one without a character device fails
with everything else still held. -/
theorem failed_probes_unaccounted :
    ¬ AccountedRun .flukeGpio [.probe () minorRefused] .idle ∧
    ¬ AccountedRun .altInttimer [.probe () cdevRefused] .idle := by
  have unbound : () ∉ (Tables.idle : Tables Unit).bound := Multiset.notMem_zero ()
  constructor
  · intro run
    have minor := ((run_accounted_iff idle_accounted).mp run).1 unbound rfl
    exact absurd minor.1 (by decide)
  · intro run
    have finish := ((run_accounted_iff idle_accounted).mp run).1 unbound rfl
    exact absurd (finish.2 rfl rfl).2 (by decide)

end FlukeCda.Port
