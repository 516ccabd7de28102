import PredicatedMesh.Target.ControlLayout

/-!
# Reading and assigning the fields of a control

A control is a record of addresses, flags and symbols, and the codec reaches each field by its name.
Three facts make the record an ordinary table: a field reads back what was assigned to it, an
assignment leaves the other fields alone, and two controls with the same fields are equal. The last
needs the route arrays to have their four entries, which is what `Shaped` says.
-/

namespace PredicatedMesh

/-! ## Assigning the fields of a control -/

/-- The route arrays have one entry for each direction. -/
def TileControl.Shaped (control : TileControl) : Prop :=
  control.dataRoutes.length = 4 ∧ control.predicateRoutes.length = 4

theorem directionIndex_injective {d e : Direction} (h : directionIndex d = directionIndex e) :
    d = e := by
  cases d <;> cases e <;> first | rfl | cases h

theorem directionIndex_lt (d : Direction) : directionIndex d < 4 := by
  cases d <;> decide

theorem routeAt_modify {routes : List RouteControl} (h : routes.length = 4)
    (f : RouteControl → RouteControl) (d e : Direction) :
    routeAt (routes.modify (directionIndex d) f) e =
      if d = e then f (routeAt routes e) else routeAt routes e := by
  have hlt : directionIndex e < routes.length := h ▸ directionIndex_lt e
  rw [routeAt, List.getElem?_modify, routeAt]
  by_cases hde : d = e
  · subst hde
    simp [hlt]
  · have hne : directionIndex d ≠ directionIndex e := fun hi ↦ hde (directionIndex_injective hi)
    simp [hde, hne]

variable {control control' : TileControl}

namespace ControlNumber

@[simp] theorem get_number_set (k j : ControlNumber) (v : ℕ) :
    j.get (k.set control v) = if k = j then v else j.get control := by
  cases k <;> cases j <;> rfl

@[simp] theorem get_flag_set (k : ControlFlag) (j : ControlNumber) (v : Bool) :
    j.get (k.set control v) = j.get control := by
  cases k <;> cases j <;> rfl

@[simp] theorem get_symbol_set (k : ControlSymbol) (j : ControlNumber) (v : String) :
    j.get (k.set control v) = j.get control := by
  cases k <;> cases j <;> rfl

end ControlNumber

namespace ControlFlag

@[simp] theorem get_number_set (k : ControlNumber) (j : ControlFlag) (v : ℕ) :
    j.get (k.set control v) = j.get control := by
  cases k <;> cases j <;> rfl

theorem get_flag_set (h : control.Shaped) (k j : ControlFlag) (v : Bool) :
    j.get (k.set control v) = if k = j then v else j.get control := by
  cases k <;> cases j <;>
    first
    | rfl
    | simp only [set, get, routeAt_modify h.1, routeAt_modify h.2, dataRouteEnable.injEq,
        predicateRouteEnable.injEq]
      split <;> rfl

theorem get_symbol_set (h : control.Shaped) (k : ControlSymbol) (j : ControlFlag) (v : String) :
    j.get (k.set control v) = j.get control := by
  cases k <;> cases j <;>
    first
    | rfl
    | simp only [ControlSymbol.set, get, routeAt_modify h.1, routeAt_modify h.2]
      split <;> rfl

end ControlFlag

namespace ControlSymbol

@[simp] theorem get_number_set (k : ControlNumber) (j : ControlSymbol) (v : ℕ) :
    j.get (k.set control v) = j.get control := by
  cases k <;> cases j <;> rfl

theorem get_flag_set (h : control.Shaped) (k : ControlFlag) (j : ControlSymbol) (v : Bool) :
    j.get (k.set control v) = j.get control := by
  cases k <;> cases j <;>
    first
    | rfl
    | simp only [ControlFlag.set, get, routeAt_modify h.1, routeAt_modify h.2]
      split <;> rfl

theorem get_symbol_set (h : control.Shaped) (k j : ControlSymbol) (v : String) :
    j.get (k.set control v) = if k = j then v else j.get control := by
  cases k <;> cases j <;>
    first
    | rfl
    | simp only [set, get, routeAt_modify h.1, routeAt_modify h.2, dataRouteSource.injEq,
        predicateRouteSource.injEq]
      split <;> rfl

end ControlSymbol

theorem TileControl.Shaped.set_number (h : control.Shaped) (k : ControlNumber) (v : ℕ) :
    (k.set control v).Shaped := by
  cases k <;> exact h

theorem TileControl.Shaped.set_flag (h : control.Shaped) (k : ControlFlag) (v : Bool) :
    (k.set control v).Shaped := by
  cases k <;> simpa [TileControl.Shaped, ControlFlag.set] using h

theorem TileControl.Shaped.set_symbol (h : control.Shaped) (k : ControlSymbol) (v : String) :
    (k.set control v).Shaped := by
  cases k <;> simpa [TileControl.Shaped, ControlSymbol.set] using h

namespace ControlInteger

theorem get_integer_set_of_ne (h : control.Shaped) {k j : ControlInteger} (hne : k ≠ j) (v : ℕ) :
    j.get (k.set control v) = j.get control := by
  cases k with
  | number k =>
    cases j with
    | number j =>
      have hkj : k ≠ j := fun heq ↦ hne (congrArg _ heq)
      simp [set, get, hkj]
    | flag j => simp [set, get]
  | flag k =>
    cases j with
    | number j => simp [set, get]
    | flag j =>
      have hkj : k ≠ j := fun heq ↦ hne (congrArg _ heq)
      simp [set, get, ControlFlag.get_flag_set h, hkj]

theorem get_symbol_set (h : control.Shaped) (k : ControlSymbol) (j : ControlInteger)
    (v : String) : j.get (k.set control v) = j.get control := by
  cases j with
  | number j => simp [get]
  | flag j => simp [get, ControlFlag.get_symbol_set h]

theorem shaped_set (h : control.Shaped) (k : ControlInteger) (v : ℕ) :
    (k.set control v).Shaped := by
  cases k with
  | number k => exact h.set_number k _
  | flag k => exact h.set_flag k _

end ControlInteger

theorem ControlSymbol.get_integer_set (h : control.Shaped) (k : ControlInteger)
    (j : ControlSymbol) (v : ℕ) : j.get (k.set control v) = j.get control := by
  cases k with
  | number k => simp [ControlInteger.set]
  | flag k => simp [ControlInteger.set, ControlSymbol.get_flag_set h]

/-- A route array is its four routes. -/
theorem eq_of_routeAt_eq {routes routes' : List RouteControl} (h : routes.length = 4)
    (h' : routes'.length = 4) (heq : ∀ d, routeAt routes d = routeAt routes' d) :
    routes = routes' := by
  obtain ⟨a, b, c, d, rfl⟩ : ∃ a b c d, routes = [a, b, c, d] := List.length_eq_four.mp h
  obtain ⟨a', b', c', d', rfl⟩ : ∃ a b c d, routes' = [a, b, c, d] := List.length_eq_four.mp h'
  have hnorth : a = a' := heq .north
  have hsouth : b = b' := heq .south
  have heast : c = c' := heq .east
  have hwest : d = d' := heq .west
  rw [hnorth, hsouth, heast, hwest]

theorem route_ext {r r' : RouteControl} (he : r.enabled = r'.enabled)
    (hs : r.source = r'.source) : r = r' := by
  cases r
  cases r'
  exact congrArg₂ RouteControl.mk he hs

/-- A control is determined by its fields. -/
theorem TileControl.ext_fields (h : control.Shaped) (h' : control'.Shaped)
    (hn : ∀ k : ControlNumber, k.get control = k.get control')
    (hf : ∀ k : ControlFlag, k.get control = k.get control')
    (hs : ∀ k : ControlSymbol, k.get control = k.get control') : control = control' := by
  have hdata : control.dataRoutes = control'.dataRoutes :=
    eq_of_routeAt_eq h.1 h'.1 fun d ↦ route_ext (hf (.dataRouteEnable d)) (hs (.dataRouteSource d))
  have hpred : control.predicateRoutes = control'.predicateRoutes :=
    eq_of_routeAt_eq h.2 h'.2 fun d ↦
      route_ext (hf (.predicateRouteEnable d)) (hs (.predicateRouteSource d))
  cases control
  cases control'
  rw [TileControl.mk.injEq]
  exact ⟨hs .op, hs .srcA, hs .srcB, hs .srcP0, hs .srcP1, hn .dataRfReadAddrA,
    hn .dataRfReadAddrB, hn .predicateRfReadAddrA, hn .predicateRfReadAddrB, hf .dataWrite0Enable,
    hn .dataWrite0Addr, hf .dataWrite1Enable, hn .dataWrite1Addr, hs .dataWrite1Source,
    hf .predicateWrite0Enable, hn .predicateWrite0Addr, hf .predicateWrite1Enable,
    hn .predicateWrite1Addr, hs .predicateWrite1Source, hdata, hpred, hn .constantAddr, hs .lsuOp,
    hs .lsuAddrSource, hs .lsuStoreDataSource, hf .lsuCommitPredicateEnable,
    hf .lsuCommitPredicateInvert, hs .lsuCommitPredicateSource⟩

/-! ## Names of fields -/

theorem integerField_name (k : ControlInteger) : integerField k.name = .ok k := by
  cases k with
  | number k => cases k <;> decide +kernel
  | flag k =>
    cases k with
    | dataRouteEnable d => cases d <;> decide +kernel
    | predicateRouteEnable d => cases d <;> decide +kernel
    | _ => decide +kernel

theorem symbolField_name (k : ControlSymbol) : symbolField k.name = .ok k := by
  cases k with
  | dataRouteSource d => cases d <;> decide +kernel
  | predicateRouteSource d => cases d <;> decide +kernel
  | _ => decide +kernel

theorem ControlInteger.mem_all (k : ControlInteger) : k ∈ ControlInteger.all := by
  cases k with
  | number k => cases k <;> decide
  | flag k =>
    cases k with
    | dataRouteEnable d => cases d <;> decide
    | predicateRouteEnable d => cases d <;> decide
    | _ => decide

theorem ControlSymbol.mem_all (k : ControlSymbol) : k ∈ ControlSymbol.all := by
  cases k with
  | dataRouteSource d => cases d <;> decide
  | predicateRouteSource d => cases d <;> decide
  | _ => decide

theorem integer_name_ne_symbol_name (k : ControlInteger) (j : ControlSymbol) :
    k.name ≠ j.name := by
  have hall : ∀ k ∈ ControlInteger.all, ∀ j ∈ ControlSymbol.all, k.name ≠ j.name := by
    decide +kernel
  exact hall k k.mem_all j j.mem_all

theorem ControlInteger.name_injective {k j : ControlInteger} (h : k.name = j.name) : k = j :=
  Except.ok.inj (by rw [← integerField_name k, h, integerField_name j])

theorem ControlSymbol.name_injective {k j : ControlSymbol} (h : k.name = j.name) : k = j :=
  Except.ok.inj (by rw [← symbolField_name k, h, symbolField_name j])

end PredicatedMesh
