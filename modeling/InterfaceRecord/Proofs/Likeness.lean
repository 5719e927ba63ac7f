/-
  Catalogs that answer alike, though they keep types and sites in their own ways. What is decided
  about a method, what is kept and what is wrong is the same in both, so a derivation comes to the
  same outline and to the same faults (`Alike.derive`): they correspond, with each handle as it is.
-/
import InterfaceRecord.Proofs.Correspondence

namespace InterfaceRecord

namespace Catalog

variable {I M T S T' S' : Type}

/-- Two catalogs of the same interfaces and methods answer alike as far as a derivation can tell.
The text of a type is compared only where the type is not void. -/
structure Alike (g : Catalog I M T S Unit) (g' : Catalog I M T' S' Unit) : Prop where
  separator : g'.separator = g.separator
  qualifiedName : g'.qualifiedName = g.qualifiedName
  simpleName : g'.simpleName = g.simpleName
  typeParameters : ∀ i,
    (g'.typeParameters i).map g'.typeText = (g.typeParameters i).map g.typeText
  supertypes : g'.supertypes = g.supertypes
  methods : g'.methods = g.methods
  methodName : g'.methodName = g.methodName
  isStatic : g'.isStatic = g.isStatic
  isDefault : g'.isDefault = g.isDefault
  isPublic : g'.isPublic = g.isPublic
  parameters : ∀ m, (g'.parameters m).isEmpty = (g.parameters m).isEmpty
  methodTypeParameters : ∀ m,
    (g'.methodTypeParameters m).isEmpty = (g.methodTypeParameters m).isEmpty
  ignoresDefault : g'.ignoresDefault = g.ignoresDefault
  initializerName : g'.initializerName = g.initializerName
  isVoid : ∀ m, g'.isVoid (g'.returnType m) () = g.isVoid (g.returnType m) ()
  typeText : ∀ m, g.isVoid (g.returnType m) () = (false, ()) →
    g'.typeText (g'.returnType m) = g.typeText (g.returnType m)
  sameType : ∀ m m', g'.sameType (g'.returnType m) (g'.returnType m') =
    g.sameType (g.returnType m) (g.returnType m')
  constants : ∀ i name m,
    (g'.constants i).any (g'.isInitializerConstant name (g'.returnType m)) =
      (g.constants i).any (g.isInitializerConstant name (g.returnType m))

variable {g : Catalog I M T S Unit} {g' : Catalog I M T' S' Unit}

/-- They correspond without any renaming. -/
theorem Alike.corresponds (h : Alike g g') : g.Corresponds g' (fun _ => True) ⟨id, id⟩ where
  separator := h.separator
  closed := fun _ _ _ _ => trivial
  qualifiedName := fun i _ => congrFun h.qualifiedName i
  simpleName := fun i _ => congrFun h.simpleName i
  typeParameters := fun i _ => h.typeParameters i
  supertypes := fun i _ => (congrFun h.supertypes i).trans (List.map_id _).symm
  methods := fun i _ => (congrFun h.methods i).trans (List.map_id _).symm
  method := fun d _ => {
    name := congrFun h.methodName d.2
    isStatic := congrFun h.isStatic d.2
    isDefault := congrFun h.isDefault d.2
    isPublic := congrFun h.isPublic d.2
    parameters := h.parameters d.2
    typeParameters := h.methodTypeParameters d.2
    ignoresDefault := congrFun h.ignoresDefault d.2
    initializerName := congrFun h.initializerName d.2
    isVoid := h.isVoid d.2
    typeText := h.typeText d.2 }
  sameType := fun d e _ _ => h.sameType d.2 e.2
  constants := fun d _ name => h.constants d.1 name d.2

/-- Derivations from catalogs that answer alike come to the same outline, or both to none, and
report the same faults. -/
theorem Alike.derive (h : Alike g g') (settings : Settings) (scheme : NameScheme) (root : I) :
    (g'.derive settings scheme root ()).record.map (·.outline g'.typeText) =
        (g.derive settings scheme root ()).record.map (·.outline g.typeText) ∧
      (g'.derive settings scheme root ()).diagnostics.map (·.fault) =
        (g.derive settings scheme root ()).diagnostics.map (·.fault) := by
  have hroot : (fun _ : I => True) root := trivial
  exact h.corresponds.derive settings scheme hroot

end Catalog

end InterfaceRecord
