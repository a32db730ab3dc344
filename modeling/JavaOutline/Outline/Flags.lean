import JavaOutline.Outline.Basic

/-!
# JavaOutline.Outline.Flags

Which flags hold of a declaration: those of the keywords written on it and
those the language adds by itself, which depend on its own kind and on the
kind of the type around it.

Written keywords always count. The rules only add flags, but for one case: a
method of an interface that is `default` or `static` is never abstract.
-/

namespace JavaOutline

/-- Is a type of this kind static when it is nested in a type of kind
`enclosing`? At top level nothing is. -/
def Kind.isStaticIn (kind : Kind) : (enclosing : Option Kind) → Bool
  | none => false
  | some outer => outer.isInterfaceLike ||
    match kind with
    | .interfaceType | .enumeration | .annotationType | .recordType => true
    | .classType | .unknown => false

/-- The flags of a type. `hasAbstractMethod` says whether one of its own
methods is written `abstract`; methods of an interface that are abstract
without the keyword do not count. -/
def TypeFlags.ofModifiers (kind : Kind) (modifiers : List Modifier) (hasAbstractMethod : Bool)
    (enclosing : Option Kind) : TypeFlags where
  isPublic := modifiers.contains .publicAccess
  isProtected := modifiers.contains .protectedAccess
  isPrivate := modifiers.contains .privateAccess
  isAbstract := modifiers.contains .abstract || hasAbstractMethod
  isFinal := modifiers.contains .final || kind == .recordType
  isStatic := modifiers.contains .static || kind.isStaticIn enclosing

/-- The flags of a field of a type of kind `owner`. -/
def FieldFlags.ofModifiers (modifiers : List Modifier) (owner : Kind) : FieldFlags where
  isPublic := owner.isInterfaceLike || modifiers.contains .publicAccess
  isProtected := modifiers.contains .protectedAccess
  isPrivate := modifiers.contains .privateAccess
  isFinal := owner.isInterfaceLike || modifiers.contains .final
  isStatic := owner.isInterfaceLike || modifiers.contains .static
  isTransient := modifiers.contains .transient
  isVolatile := modifiers.contains .volatile

/-- The flags of the field behind a component of a record. -/
def FieldFlags.ofComponent : FieldFlags where
  isPublic := false
  isProtected := false
  isPrivate := true
  isFinal := true
  isStatic := false
  isTransient := false
  isVolatile := false

/-- The flags of a constructor. -/
def ConstructorFlags.ofModifiers (modifiers : List Modifier) : ConstructorFlags where
  isPublic := modifiers.contains .publicAccess
  isProtected := modifiers.contains .protectedAccess
  isPrivate := modifiers.contains .privateAccess

/-- The flags of a method of a type of kind `owner`. -/
def MethodFlags.ofModifiers (modifiers : List Modifier) (owner : Kind) : MethodFlags where
  isPublic := owner == .interfaceType || modifiers.contains .publicAccess
  isProtected := modifiers.contains .protectedAccess
  isPrivate := modifiers.contains .privateAccess
  isAbstract :=
    if owner = .interfaceType then
      !modifiers.contains .default && !modifiers.contains .static
    else modifiers.contains .abstract
  isFinal := modifiers.contains .final
  isStatic := modifiers.contains .static
  isSynchronized := modifiers.contains .synchronized
  isNative := modifiers.contains .native
  isDefault := modifiers.contains .default

end JavaOutline
