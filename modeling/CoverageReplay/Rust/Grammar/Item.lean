import CoverageReplay.Rust.Grammar.Statement
import CoverageReplay.Rust.Grammar.Type

/-!
# Items

The rule for an item gives the bodies of the functions in it: those of free functions, of the
functions of implementations, of the functions of traits that have one, and of what stands in inline
modules. Functions inside other functions do not count, nor do those of an item that is only kept as
tokens (one that has a form this grammar accepts but gives no meaning).
-/

namespace CoverageReplay.Rust.Grammar

open Rule

/-- Discards the bodies of an item that is only kept as tokens. -/
def opaqueIf (hidden : Bool) (bodies : List CodeBlock) : List CodeBlock :=
  if hidden then [] else bodies

/-! ## Parts of items -/

/-- A visibility, if there is one; tells whether there is. -/
def visibility : Rule Bool := do
  if ← word? "pub" then
    match ← ahead with
    | .group .paren _ inner _ :: _ =>
      let single := match inner with
        | [.ident name _] => name = "crate" || name = "self" || name = "super"
        | _ => false
      if single then take 1
      else if wordNext "in" inner then
        inside .paren do
          word "in"
          plainPath
    | _ => pure ()
    return true
  else return false

/-- Whether a function begins here; `safe` may stand before it only if allowed. -/
def signatureNext (safe : Bool) (ts : List TokenTree) : Bool :=
  let ts := if wordNext "const" ts then skip ts else ts
  let ts := if wordNext "async" ts then skip ts else ts
  let ts := if (safe && wordNext "safe" ts) || wordNext "unsafe" ts then skip ts else ts
  let ts := if wordNext "extern" ts then
      let after := skip ts
      if stringNext after then skip after else after
    else ts
  wordNext "fn" ts

/-- The receiver of a method. -/
def receiver (self : Rules) : Rule Unit := do
  let byReference ← mark? "&"
  if byReference then
    let _ ← lifetime?
  let _ ← word? "mut"
  word "self"
  if !byReference then
    if ← mark? ":" then
      let _ ← self.type true

/-- What a parameter of a function is. -/
inductive ParameterKind where
  | receiver
  | typed
  /-- Dots for further parameters. -/
  | dots
  deriving DecidableEq

/-- A parameter of a function. -/
def parameter (self : Rules) : Rule ParameterKind := do
  outerAttributes self
  if ← mark? "..." then return .dots
  else if (← attempt (receiver self)).isSome then return .receiver
  else
    let ts ← ahead
    if nameNext ts && markNext "<" (skip ts) then
      let _ ← self.type true
      return .typed
    else
      let _ ← self.pattern
      mark ":"
      if ← mark? "..." then return .dots
      else
        let _ ← self.type true
        return .typed

/-- The parameters of a function, in at most `rounds` rounds. A receiver stands only in the first
place, and dots end them. -/
def parameters (self : Rules) (first : Bool) : Nat → Rule Unit
  | 0 => fail
  | rounds + 1 => do
    if ← atEnd then return
    let kind ← parameter self
    require (first || kind ≠ .receiver)
    if ← atEnd then return
    mark ","
    if kind ≠ .dots then parameters self false rounds

/-- All of a function but its body. -/
def signature (self : Rules) (safe : Bool) : Rule Unit := do
  let _ ← word? "const"
  let _ ← word? "async"
  let marked ← if safe then word? "safe" else pure false
  if !marked then
    let _ ← word? "unsafe"
  callingConvention
  word "fn"
  let _ ← name
  let _ ← genericParameters self
  inside .paren do parameters self true ((← ahead).length + 1)
  let _ ← returnType self true
  let _ ← whereClause self

/-- A value after an equals sign, if there is one. -/
def optionalDefinition (self : Rules) : Rule Unit := do
  if ← mark? "=" then
    let _ ← self.expression true

/-- A constant. -/
def constItem (self : Rules) : Rule Unit := do
  word "const"
  let ts ← ahead
  require (nameNext ts || wordNext "_" ts)
  take 1
  let _ ← genericParameters self
  mark ":"
  let _ ← self.type true
  optionalDefinition self
  let _ ← whereClause self
  mark ";"

/-- A type alias or an associated type, whose where clause may stand before or after the equals
sign. -/
def typeItem (self : Rules) (whereBefore whereAfter : Bool) : Rule Unit := do
  word "type"
  let _ ← name
  let _ ← genericParameters self
  if ← mark? ":" then
    let _ ← list (fun ts => wordNext "where" ts || markNext "=" ts || markNext ";" ts) "+"
      (self.bound false true)
  let had ← if whereBefore then whereClause self else pure false
  if ← mark? "=" then
    let _ ← self.type true
  if whereAfter && !had then
    let _ ← whereClause self
  mark ";"

/-- A macro call in the place of an item; a name may stand before its arguments only if `named`. -/
def macroItem (named : Bool) : Rule Unit := do
  plainPath
  mark "!"
  if named then
    let ts ← ahead
    if nameNext ts || wordNext "try" ts then take 1
  let braced ← anyGroup
  if !braced then mark ";"

/-! ## Structures and enumerations -/

/-- A field with a name. -/
def namedField (self : Rules) : Rule Unit := do
  outerAttributes self
  let _ ← visibility
  let ts ← ahead
  require (nameNext ts || wordNext "_" ts)
  take 1
  mark ":"
  let _ ← self.type true

/-- A field without a name. -/
def plainField (self : Rules) : Rule Unit := do
  outerAttributes self
  let _ ← visibility
  let _ ← self.type true

/-- Named fields in braces. -/
def namedFields (self : Rules) : Rule Unit := do
  let _ ← inside .brace (commaList (namedField self))

/-- Plain fields in parentheses. -/
def plainFields (self : Rules) : Rule Unit := do
  let _ ← inside .paren (commaList (plainField self))

/-- A structure. -/
def structItem (self : Rules) : Rule Unit := do
  word "struct"
  let _ ← name
  let _ ← genericParameters self
  let hasWhere ← whereClause self
  let ts ← ahead
  if !hasWhere && groupNext .paren ts then
    plainFields self
    let _ ← whereClause self
    mark ";"
  else if groupNext .brace ts then namedFields self
  else mark ";"

/-- An alternative of an enumeration. -/
def variant (self : Rules) : Rule Unit := do
  outerAttributes self
  let _ ← visibility
  let _ ← name
  let ts ← ahead
  if groupNext .brace ts then namedFields self
  else if groupNext .paren ts then plainFields self
  optionalDefinition self

/-- An enumeration. -/
def enumItem (self : Rules) : Rule Unit := do
  word "enum"
  let _ ← name
  let _ ← genericParameters self
  let _ ← whereClause self
  let _ ← inside .brace (commaList (variant self))

/-- A union. -/
def unionItem (self : Rules) : Rule Unit := do
  word "union"
  let _ ← name
  let _ ← genericParameters self
  let _ ← whereClause self
  namedFields self

/-! ## Imports and foreign items -/

/-- What follows `use`; a tree in braces may begin with `::` only if `rooted` is set. -/
def useTreeRule (self : Rules) (rooted : Bool) : Rule Unit := do
  let ts ← ahead
  if nameNext ts || pathWordNext ts || wordNext "try" ts then
    take 1
    if ← mark? "::" then self.useTree false
    else if ← word? "as" then
      let ts ← ahead
      require (nameNext ts || wordNext "_" ts)
      take 1
  else if ← mark? "*" then return
  else
    let _ ← inside .brace do
      commaList do
        let fromRoot ← if rooted then mark? "::" else pure false
        self.useTree (rooted && !fromRoot)

/-- An import. -/
def useItem (self : Rules) : Rule Unit := do
  word "use"
  let rooted ← mark? "::"
  self.useTree (!rooted)
  mark ";"

/-- The declaration of an external crate. -/
def externCrate : Rule Unit := do
  word "extern"
  word "crate"
  let ts ← ahead
  require (nameNext ts || wordNext "self" ts)
  take 1
  if ← word? "as" then
    let ts ← ahead
    require (nameNext ts || wordNext "_" ts)
    take 1
  mark ";"

/-- An item in a foreign module. -/
def foreignItem (self : Rules) : Rule Unit := do
  outerAttributes self
  let isPublic ← visibility
  let ts ← ahead
  let second := skip ts
  if signatureNext true ts then
    signature self true
    if groupNext .brace (← ahead) then
      let _ ← block self true
    else mark ";"
  else if wordNext "static" ts ||
      ((wordNext "unsafe" ts || wordNext "safe" ts) && wordNext "static" second) then
    if !wordNext "static" ts then take 1
    word "static"
    let _ ← word? "mut"
    let _ ← name
    mark ":"
    let _ ← self.type true
    optionalDefinition self
    mark ";"
  else if wordNext "type" ts then typeItem self true true
  else
    require (!isPublic && pathNext ts)
    macroItem false

/-- A foreign module. -/
def foreignModule (self : Rules) : Rule Unit := do
  let _ ← word? "unsafe"
  require (wordNext "extern" (← ahead))
  callingConvention
  let _ ← inside .brace do
    innerAttributes self
    many List.isEmpty (foreignItem self)

/-! ## Functions, implementations and traits -/

/-- A function, whose body may be missing. -/
def functionItem (self : Rules) : Rule (List CodeBlock) := do
  signature self false
  if ← mark? ";" then return []
  else return [← block self true]

/-- An item of an implementation. -/
def implItem (self : Rules) : Rule (List CodeBlock) := do
  outerAttributes self
  let isPublic ← visibility
  let isDefault ← do
    let ts ← ahead
    if wordNext "default" ts && !markNext "!" (skip ts) then
      take 1
      pure true
    else pure false
  let ts ← ahead
  if signatureNext false ts then functionItem self
  else if wordNext "const" ts then
    constItem self
    return []
  else if wordNext "type" ts then
    typeItem self false true
    return []
  else
    require (!isPublic && !isDefault && pathNext ts)
    macroItem false
    return []

/-- An implementation. -/
def implementation (self : Rules) (hidden : Bool) : Rule (List CodeBlock) := do
  let _ ← word? "default"
  let _ ← word? "unsafe"
  word "impl"
  if parametersNext (← ahead) then
    let _ ← genericParameters self
  let ts ← ahead
  let isConst := wordNext "const" ts || (markNext "?" ts && wordNext "const" (skip ts))
  if isConst then
    let _ ← mark? "?"
    word "const"
  let ts ← ahead
  let negative := markNext "!" ts && !groupNext .brace (skip ts)
  if negative then take 1
  let first ← self.type true
  let ofTrait ← word? "for"
  if ofTrait then
    let _ ← self.type true
  else require (!negative)
  let isTraitPath := match first with
    | .path _ => true
    | _ => false
  let _ ← whereClause self
  let bodies ← inside .brace do
    innerAttributes self
    many List.isEmpty (implItem self)
  return opaqueIf (hidden || isConst || (ofTrait && !isTraitPath)) bodies.flatten

/-- An item of a trait. -/
def traitItem (self : Rules) : Rule (List CodeBlock) := do
  outerAttributes self
  let isPublic ← visibility
  let isDefault ← word? "default"
  let ts ← ahead
  if signatureNext false ts then
    return opaqueIf (isPublic || isDefault) (← functionItem self)
  else if wordNext "const" ts then
    constItem self
    return []
  else if wordNext "type" ts then
    typeItem self false true
    return []
  else
    require (!isPublic && !isDefault && pathNext ts)
    macroItem false
    return []

/-- A trait after its name and parameters. -/
def traitRest (self : Rules) : Rule (List CodeBlock) := do
  if ← mark? ":" then
    let _ ← list (fun ts => wordNext "where" ts || groupNext .brace ts) "+" (self.bound false true)
  let _ ← whereClause self
  let bodies ← inside .brace do
    innerAttributes self
    many List.isEmpty (traitItem self)
  return bodies.flatten

/-- A trait or a trait alias. -/
def traitDeclaration (self : Rules) : Rule (List CodeBlock) := do
  let isUnsafe ← word? "unsafe"
  let isAuto ← word? "auto"
  word "trait"
  let _ ← name
  let _ ← genericParameters self
  if !isUnsafe && !isAuto && (← mark? "=") then
    let _ ← list (fun ts => wordNext "where" ts || markNext ";" ts) "+" (self.bound false true)
    let _ ← whereClause self
    mark ";"
    return []
  else traitRest self

/-- A module. -/
def moduleItem (self : Rules) : Rule (List CodeBlock) := do
  let _ ← word? "unsafe"
  word "mod"
  let ts ← ahead
  require (nameNext ts || wordNext "try" ts)
  take 1
  if ← mark? ";" then return []
  else
    let bodies ← inside .brace do
      innerAttributes self
      many List.isEmpty self.item
    return bodies.flatten

/-- A static variable, whose type or value may be missing. -/
def staticItem (self : Rules) : Rule Unit := do
  word "static"
  let _ ← word? "mut"
  let _ ← name
  if ← mark? "=" then
    let _ ← self.expression true
  else
    mark ":"
    let _ ← self.type true
    optionalDefinition self
  mark ";"

/-- A declarative macro that is written like a function. -/
def macroDefinition : Rule Unit := do
  word "macro"
  let _ ← name
  if groupNext .paren (← ahead) then take 1
  inside .brace anything

/-- An item, with the function bodies in it. -/
def itemRule (self : Rules) : Rule (List CodeBlock) := do
  outerAttributes self
  let isPublic ← visibility
  let ts ← ahead
  let second := skip ts
  let silent := fun r : Rule Unit => do
    r
    return ([] : List CodeBlock)
  if signatureNext false ts then functionItem self
  else if wordNext "extern" ts then
    if wordNext "crate" second then silent externCrate
    else
      require (!isPublic)
      silent (foreignModule self)
  else if wordNext "use" ts then silent (useItem self)
  else if wordNext "static" ts then silent (staticItem self)
  else if wordNext "const" ts then silent (constItem self)
  else if wordNext "unsafe" ts then
    if wordNext "trait" second || (wordNext "auto" second && wordNext "trait" (skip second)) then
      traitDeclaration self
    else if wordNext "impl" second then implementation self isPublic
    else if wordNext "extern" second then
      require (!isPublic)
      silent (foreignModule self)
    else
      require (wordNext "mod" second)
      moduleItem self
  else if wordNext "mod" ts then moduleItem self
  else if wordNext "type" ts then silent (typeItem self true false)
  else if wordNext "struct" ts then silent (structItem self)
  else if wordNext "enum" ts then silent (enumItem self)
  else if wordNext "union" ts && nameNext second then silent (unionItem self)
  else if wordNext "trait" ts || (wordNext "auto" ts && wordNext "trait" second) then
    traitDeclaration self
  else if wordNext "impl" ts || (wordNext "default" ts && !markNext "!" second) then
    implementation self isPublic
  else if wordNext "macro" ts then silent macroDefinition
  else
    require (!isPublic && pathNext ts)
    silent (macroItem true)

end CoverageReplay.Rust.Grammar
