import CydMonitor.Lib.StableSort
import CydMonitor.Metrics.Network

/-!
# Whether the primary route is counted

The links are filtered, sorted and cut to eight. The route's own interface is among them when
its link is active or of another kind, and fewer than eight active ports come before it.
-/

namespace CydMonitor.Metrics

open StableSort

variable {view : SystemView} {route : PrimaryRoute} {i j : InterfaceInfo}

/-- A WiFi or Ethernet port with an active link. -/
def InterfaceInfo.activePort (i : InterfaceInfo) : Bool :=
  i.linkActive && (i.kind == .wifi || i.kind == .ethernet)

/-- The active ports that come before an interface, by kind, index and place in the view. -/
def rivals (view : SystemView) (i : InterfaceInfo) : List InterfaceInfo :=
  view.interfaces.filter fun j =>
    j.activePort && precedes linkBefore (view.interfaces.takeWhile fun k => k.name != i.name) i j

theorem linkBefore_iff {a b : InterfaceInfo} :
    linkBefore a b = true ↔
      a.kind.rank < b.kind.rank ∨ a.kind.rank = b.kind.rank ∧ a.index.toNat ≤ b.index.toNat := by
  simp [linkBefore, UInt32.le_iff_toNat_le]

theorem linkBefore_trans (a b c : InterfaceInfo) (hab : linkBefore a b = true)
    (hbc : linkBefore b c = true) : linkBefore a c = true := by
  rw [linkBefore_iff] at hab hbc ⊢
  omega

theorem linkBefore_total (a b : InterfaceInfo) : (linkBefore a b || linkBefore b a) = true := by
  rw [Bool.or_eq_true, linkBefore_iff, linkBefore_iff]
  omega

/-- The interface of a route that is no tunnel. -/
theorem interface_of_route (hdistinct : (view.interfaces.map (·.name)).Nodup)
    (hroute : selectPrimaryRoute view = some route) (hdirect : route.viaTunnel = false) :
    ∃ i ∈ view.interfaces, i.name = route.interface ∧ i.kind ≠ .tunnel ∧ i.kind ≠ .loopback := by
  obtain ⟨chosen, hchosen, hrest⟩ := Option.bind_eq_some_iff.mp hroute
  obtain ⟨primary, hprimary, hselected⟩ := Option.bind_eq_some_iff.mp hrest
  have hmem := List.mem_of_find?_eq_some hprimary
  have hname : primary.name = chosen.interface := by simpa using List.find?_some hprimary
  have husable : view.usable chosen = true := by
    rw [SystemView.chosenRoute, Option.orElse_eq_or, Option.or_eq_some_iff] at hchosen
    rcases hchosen with h | ⟨-, h⟩
    · exact (List.mem_filter.mp (List.mem_of_find?_eq_some h)).2
    · exact List.find?_some h
  obtain ⟨other, hother, hup⟩ := List.any_eq_true.mp husable
  simp only [Bool.and_eq_true, beq_iff_eq, bne_iff_ne] at hup
  obtain rfl : other = primary :=
    List.inj_on_of_nodup_map hdistinct hother hmem (hup.1.1.trans hname.symm)
  by_cases htunnel : other.kind = .tunnel
  · rw [if_neg (not_not.mpr htunnel)] at hselected
    obtain rfl := Option.some.inj hselected
    cases hdirect
  · rw [if_pos htunnel] at hselected
    obtain rfl := Option.some.inj hselected
    exact ⟨other, hother, rfl, htunnel, hup.2⟩

section Route

variable (hdistinct : (view.interfaces.map (·.name)).Nodup) (hname : i.name = route.interface)
  (hdirect : route.viaTunnel = false)
include hdistinct hname hdirect

/-- Besides the active ports, only the route's own interface counts. -/
theorem isActiveLink_iff (hi : i ∈ view.interfaces) (hj : j ∈ view.interfaces) :
    isActiveLink (some route) j = true ↔ j.activePort = true ∨ j = i ∧ i.kind = .other := by
  rw [isActiveLink, Bool.or_eq_true]
  refine or_congr Iff.rfl ?_
  simp only [Option.any_some, hdirect, Bool.not_false, Bool.true_and, Bool.and_eq_true, beq_iff_eq]
  constructor
  · rintro ⟨hroute, hkind⟩
    obtain rfl : j = i := List.inj_on_of_nodup_map hdistinct hj hi (hroute.symm.trans hname.symm)
    exact ⟨rfl, hkind⟩
  · rintro ⟨rfl, hkind⟩
    exact ⟨hname.symm, hkind⟩

/-- The interface of the route is counted unless eight ports come before it. -/
theorem mem_activeLinks_iff (hi : i ∈ view.interfaces)
    (hactive : isActiveLink (some route) i = true) :
    i ∈ activeLinks view (some route) ↔ (rivals view i).length < maxLinks := by
  obtain ⟨before, after, hsplit⟩ := List.append_of_mem hi
  have hnodup : (view.interfaces.filter (isActiveLink (some route))).Nodup :=
    (List.Nodup.of_map _ hdistinct).filter _
  have hbefore : (view.interfaces.takeWhile fun k => k.name != i.name) = before := by
    rw [hsplit] at hdistinct ⊢
    rw [List.map_append, List.nodup_append] at hdistinct
    rw [List.takeWhile_append_of_pos, List.takeWhile_cons_of_neg (by simp), List.append_nil]
    intro k hk
    simpa using hdistinct.2.2 _ (List.mem_map_of_mem hk) _ List.mem_cons_self
  have hfilter : view.interfaces.filter (isActiveLink (some route)) =
      before.filter (isActiveLink (some route)) ++
        i :: after.filter (isActiveLink (some route)) := by
    rw [hsplit, List.filter_append, List.filter_cons_of_pos hactive]
  rw [hfilter] at hnodup
  rw [activeLinks, hfilter, mem_take_mergeSort linkBefore_trans linkBefore_total hnodup, ← hfilter,
    List.countP_filter, rivals, hbefore, List.countP_eq_length_filter]
  -- A port counts as a rival exactly when it is sorted before the interface.
  suffices hsame : view.interfaces.filter (fun j =>
      precedes linkBefore (before.filter (isActiveLink (some route))) i j &&
        isActiveLink (some route) j) =
      view.interfaces.filter fun j => j.activePort && precedes linkBefore before i j by
    rw [hsame]
  refine List.filter_congr fun j hj => Bool.eq_iff_iff.mpr ?_
  rw [Bool.and_eq_true, Bool.and_eq_true, and_comm]
  refine ⟨fun ⟨hlink, hprecedes⟩ => ?_, fun ⟨hport, hprecedes⟩ => ?_⟩
  · rw [precedes_filter hlink] at hprecedes
    rcases (isActiveLink_iff hdistinct hname hdirect hi hj).mp hlink with hport | ⟨rfl, -⟩
    · exact ⟨hport, hprecedes⟩
    · have hself : linkBefore j j = true := by simpa using linkBefore_total j j
      have hnew : j ∉ before := fun h => by
        rw [hsplit, List.map_append, List.nodup_append] at hdistinct
        exact hdistinct.2.2 _ (List.mem_map_of_mem h) _ List.mem_cons_self rfl
      simp [precedes, hself, hnew] at hprecedes
  · have hlink := (isActiveLink_iff hdistinct hname hdirect hi hj).mpr (.inl hport)
    exact ⟨hlink, (precedes_filter hlink).trans hprecedes⟩

end Route

/-- The route's own interface is counted exactly when its link is active or of another kind, and
fewer than eight active ports come before it. -/
theorem primary_counted_iff (view : SystemView) (hdistinct : (view.interfaces.map (·.name)).Nodup)
    (route : PrimaryRoute) (hroute : selectPrimaryRoute view = some route)
    (hdirect : route.viaTunnel = false) :
    (∃ i ∈ activeLinks view (some route), i.name = route.interface) ↔
      ∃ i ∈ view.interfaces, i.name = route.interface ∧ (i.linkActive = true ∨ i.kind = .other) ∧
        (rivals view i).length < maxLinks := by
  obtain ⟨i, hi, hname, htunnel, hloopback⟩ := interface_of_route hdistinct hroute hdirect
  have honly {j : InterfaceInfo} (hj : j ∈ view.interfaces) (h : j.name = route.interface) :
      j = i :=
    List.inj_on_of_nodup_map hdistinct hj hi (h.trans hname.symm)
  have hactive : isActiveLink (some route) i = true ↔ i.linkActive = true ∨ i.kind = .other := by
    rw [isActiveLink_iff hdistinct hname hdirect hi hi, InterfaceInfo.activePort]
    cases hkind : i.kind with
    | wifi => simp
    | ethernet => simp
    | other => simp
    | tunnel => exact absurd hkind htunnel
    | loopback => exact absurd hkind hloopback
  constructor
  · rintro ⟨j, hj, hjname⟩
    have hlink := List.mem_filter.mp ((List.mem_mergeSort).mp (List.mem_of_mem_take hj))
    obtain rfl := honly hlink.1 hjname
    exact ⟨j, hi, hname, hactive.mp hlink.2,
      (mem_activeLinks_iff hdistinct hname hdirect hi hlink.2).mp hj⟩
  · rintro ⟨j, hj, hjname, hlink, hrivals⟩
    obtain rfl := honly hj hjname
    exact ⟨j, (mem_activeLinks_iff hdistinct hname hdirect hi (hactive.mpr hlink)).mpr hrivals,
      hname⟩

/-- A Mac with cabled ports and a Thunderbolt bridge that carries its only route. -/
def bridgedView (ports : List String) : SystemView where
  interfaces :=
    { name := "bridge0", index := 20, kind := .other, upRunning := true, linkActive := true
      station := none, counters := none } ::
    ports.zipIdx.map fun port =>
      { name := port.1, index := UInt32.ofNat port.2, kind := .ethernet, upRunning := true
        linkActive := true, station := none, counters := none }
  defaultRoutes := [{ interface := "bridge0", isScoped := false }]

def bridgedRoute : PrimaryRoute where
  interface := "bridge0"
  index := 20
  kind := .other
  viaTunnel := false
  station := none

theorem primary_counted_one_port :
    ∃ i ∈ activeLinks (bridgedView ["en1"]) (some bridgedRoute), i.name = bridgedRoute.interface :=
  (primary_counted_iff (bridgedView ["en1"]) (by decide +kernel) bridgedRoute (by decide +kernel)
    rfl).mpr ⟨_, List.mem_cons_self, rfl, .inl rfl, by decide +kernel⟩

def eightPorts : List String := ["en1", "en2", "en3", "en4", "en5", "en6", "en7", "en8"]

/-- Eight ports leave the bridge out. -/
theorem primary_uncounted :
    (((bridgedView eightPorts).interfaces.map (·.name)).Nodup ∧
      selectPrimaryRoute (bridgedView eightPorts) = some bridgedRoute ∧
        bridgedRoute.viaTunnel = false) ∧
      ¬ ∃ i ∈ activeLinks (bridgedView eightPorts) (some bridgedRoute),
        i.name = bridgedRoute.interface := by
  have hview : ((bridgedView eightPorts).interfaces.map (·.name)).Nodup ∧
      selectPrimaryRoute (bridgedView eightPorts) = some bridgedRoute ∧
        bridgedRoute.viaTunnel = false := by decide +kernel
  refine ⟨hview, fun ⟨i, hi, hname⟩ => ?_⟩
  have hlink := List.mem_filter.mp (List.mem_mergeSort.mp (List.mem_of_mem_take hi))
  have hrivals := (mem_activeLinks_iff hview.1 hname rfl hlink.1 hlink.2).mp hi
  obtain rfl := List.inj_on_of_nodup_map hview.1 hlink.1 List.mem_cons_self hname
  exact absurd hrivals (by decide +kernel)

end CydMonitor.Metrics
