/-!
# Why source text is refused

Each constructor is one cause; `Problem.message` gives its wording.
-/
namespace Splice

inductive Problem where
  -- Tokens
  | unexpectedEnd
  | invalidCharacter (c : Char)
  | invalidNumberEnd
  | invalidNumber
  | unterminatedString
  | unterminatedComment
  | unterminatedRegexp
  | invalidEscape
  | invalidUnicodeEscape
  | templateEscape
  | unknownFlag (flag : Char)
  | repeatedFlag (flag : Char)
  | clashingFlags
  -- General
  | unexpectedToken
  | expected (wanted found : String)
  | missingSemicolon
  | reservedName (word : String)
  | awaitName
  | yieldName
  | escapedKeyword
  | awaitOutside
  -- Expressions
  | invalidTarget
  | unexpectedPower
  | coalesceMixed
  | emptyParens
  | superAlone
  | newTarget
  | importMeta
  | newDynamicImport
  | newOptionalChain
  | optionalTemplate
  | importArity
  | importArguments
  | assertionUntyped
  | satisfiesUntyped
  | yieldOutside
  | spreadNotLast
  | restTrailingComma
  | restArgument
  | shorthandDefault
  | arrowLineBreak
  | arrowThis
  | getterParameters
  | setterParameters
  | setterRest
  -- Statements
  | missingConstInit
  | missingPatternInit
  | missingUsingInit
  | usingPattern
  | usingOverKeys (words : String)
  | returnOutside
  | lexicalSingle
  | classSingle
  | missingCatch
  | throwLineBreak
  | forAwaitNotOf
  | forOfAsync
  | asyncFunctionSingle
  | generatorSingle
  | functionName
  | restNotLast
  | patternRestNotLast
  | restInitialiser
  | restOptional
  | restPattern
  | constructorAccessor
  | constructorAsync
  | constructorGenerator
  | staticPrototype
  | privateConstructor
  | fieldConstructor
  | exportWithoutFrom
  | exportQuoted
  | duplicateExport (name : String)
  | duplicateDefault
  | duplicateAttribute (name : String)
  | exportSurrogate
  | importEqualsUntyped
  -- Typed sources
  | constructorThis
  | constructorTypeParameters
  | enumComputed
  | enumNumeric
  | interfaceImplements
  | closingTag (name : String)
  | closingFragment
  | elementComma
  | decoratorMisplaced
  | decoratorForm
  | modifierMisplaced (modifier : String)
  | modifierRepeated (modifier : String)
  | modifierOnParameter (modifier : String)
  | modifierOnTypeMember (modifier : String)
  | modifierOnMethod (modifier : String)
  | modifierOnIndex (modifier : String)
  | parameterModifier
  | accessRepeated
  | accessOnPrivate
  | optionalDefinite
  | extendsTwice
  | extendsLate
  | implementsTwice
  | typeArgumentsEmpty
  | typeParametersEmpty
  | indexSignatureType
  | accessorQuestion
  | unsupportedFlow
  -- Bounds
  | tooDeep
deriving DecidableEq, Repr, Inhabited

/-- The token that shows the problem is passed over all the same: one that stands in the place of
another, and a number without a value. -/
def Problem.passesOver : Problem → Bool
  | expected _ _ | invalidNumber => true
  | _ => false

def Problem.message : Problem → String
  | unexpectedEnd => "Unexpected end of file"
  | invalidCharacter c => s!"Invalid Character `{c}`"
  | invalidNumberEnd => "Invalid characters after number"
  | invalidNumber => "Invalid Number invalid float"
  | unterminatedString => "Unterminated string"
  | unterminatedComment => "Unterminated multiline comment"
  | unterminatedRegexp => "Unterminated regular expression"
  | invalidEscape => "Invalid escape sequence"
  | invalidUnicodeEscape => "Invalid Unicode escape sequence"
  | templateEscape => "Bad escape sequence in untagged template literal"
  | unknownFlag f => s!"Unexpected flag {f} in regular expression literal"
  | repeatedFlag f => s!"Flag {f} is mentioned twice in regular expression literal"
  | clashingFlags =>
    "The 'u' and 'v' regular expression flags cannot be enabled at the same time"
  | unexpectedToken => "Unexpected token"
  | expected w f => s!"Expected `{w}` but found `{f}`"
  | missingSemicolon =>
    "Expected a semicolon or an implicit semicolon after a statement, but found none"
  | reservedName w =>
    s!"Identifier expected. '{w}' is a reserved word that cannot be used here."
  | awaitName => "Cannot use `await` as an identifier in an async context"
  | yieldName => "Cannot use `yield` as an identifier in a generator context"
  | escapedKeyword => "Keywords cannot contain escape characters"
  | awaitOutside =>
    "`await` is only allowed within async functions and at the top levels of modules"
  | invalidTarget => "Cannot assign to this expression"
  | unexpectedPower => "Unexpected exponentiation expression"
  | coalesceMixed => "Logical expressions and coalesce expressions cannot be mixed"
  | emptyParens => "Empty parenthesized expression"
  | superAlone => "'super' can only be used with function calls or in property accesses"
  | newTarget => "The only valid meta property for new is new.target"
  | importMeta => "The only valid meta property for import is import.meta"
  | newDynamicImport => "Cannot use new with dynamic import"
  | newOptionalChain => "Invalid optional chain from new expression."
  | optionalTemplate => "Tagged template expressions are not permitted in an optional chain"
  | importArity => "import() requires a specifier."
  | importArguments =>
    "Dynamic imports can only accept a module specifier and an optional set of attributes as arguments"
  | assertionUntyped => "Type assertion expressions can only be used in TypeScript files."
  | satisfiesUntyped => "Type satisfaction expressions can only be used in TypeScript files."
  | yieldOutside => "A 'yield' expression is only allowed in a generator body."
  | spreadNotLast => "Spread must be last element"
  | restTrailingComma => 
    "A rest parameter or binding pattern may not have a trailing comma."
  | restArgument => "Invalid rest operator's argument."
  | shorthandDefault => "Invalid assignment in object literal"
  | arrowLineBreak => "Line terminator not permitted before arrow"
  | arrowThis => "An arrow function cannot have a `this` parameter."
  | getterParameters => "A 'get' accessor must not have any formal parameters."
  | setterParameters => "A 'set' accessor must have exactly one parameter."
  | setterRest => "A 'set' accessor cannot have rest parameter."
  | missingConstInit => "Missing initializer in const declaration"
  | missingPatternInit => "Missing initializer in destructuring declaration"
  | missingUsingInit => "Using declarations must have an initializer."
  | usingPattern => "Using declarations may not have binding patterns."
  | usingOverKeys w =>
    s!"The left-hand side of a for...in statement cannot be an {w} declaration."
  | returnOutside => "A 'return' statement can only be used within a function body."
  | lexicalSingle => "Lexical declaration cannot appear in a single-statement context"
  | classSingle => "Invalid class declaration"
  | missingCatch => "Missing catch or finally clause"
  | throwLineBreak => "Illegal newline after throw"
  | forAwaitNotOf => "await can only be used in conjunction with `for...of` statements"
  | forOfAsync => "The left-hand side of a `for...of` statement may not be `async`"
  | asyncFunctionSingle => "Async functions can only be declared at the top level or inside a block"
  | generatorSingle => "Generators can only be declared at the top level or inside a block"
  | functionName => "Expected function name"
  | restNotLast => "A rest parameter must be last in a parameter list"
  | patternRestNotLast => "A rest element must be last in a destructuring pattern"
  | restInitialiser => "A rest element cannot have an initializer."
  | restOptional => "A rest parameter cannot be optional."
  | restPattern => "Invalid rest element"
  | constructorAccessor => "Constructor can't have get/set modifier"
  | constructorAsync => "Constructor can't be an async method"
  | constructorGenerator => "Constructor can't be a generator"
  | staticPrototype => "Classes may not have a static property named prototype"
  | privateConstructor => "Classes can't have an element named '#constructor'"
  | fieldConstructor => "Classes can't have a field named 'constructor'"
  | exportWithoutFrom =>
    "A reserved word cannot be used as an exported binding without `from`"
  | exportQuoted => "A string literal cannot be used as an exported binding without `from`"
  | duplicateExport n => s!"Duplicated export '{n}'"
  | duplicateDefault => "Duplicated default export"
  | duplicateAttribute n => s!"Identifier `{n}` has already been declared"
  | exportSurrogate => "An export name cannot include a unicode lone surrogate"
  | importEqualsUntyped => "'import ... =' can only be used in TypeScript files."
  | constructorThis => "A constructor cannot have a `this` parameter."
  | constructorTypeParameters =>
    "Type parameters cannot appear on a constructor declaration"
  | enumComputed => "Computed property names are not allowed in enums."
  | enumNumeric => "An enum member cannot have a numeric name."
  | interfaceImplements => "Interface declaration cannot have 'implements' clause."
  | closingTag n => s!"Expected corresponding JSX closing tag for '{n}'."
  | closingFragment => "Expected corresponding closing tag for JSX fragment."
  | elementComma => "JSX expressions may not use the comma operator"
  | decoratorMisplaced => "Decorators are not valid here."
  | decoratorForm =>
    "Expression must be enclosed in parentheses to be used as a decorator."
  | modifierMisplaced m => s!"'{m}' modifier cannot be used here."
  | modifierRepeated m => s!"'{m}' modifier already seen."
  | modifierOnParameter m => s!"'{m}' modifier cannot appear on a parameter."
  | modifierOnTypeMember m => s!"'{m}' modifier cannot appear on a type member."
  | modifierOnMethod m =>
    s!"'{m}' modifier can only appear on a property declaration or index signature."
  | modifierOnIndex m => s!"'{m}' modifier cannot appear on an index signature."
  | parameterModifier => "Parameter modifiers can only be used in TypeScript files."
  | accessRepeated => "Accessibility modifier already seen."
  | accessOnPrivate => "An accessibility modifier cannot be used with a private identifier."
  | optionalDefinite => "A property cannot be both optional and definite."
  | extendsTwice => "'extends' clause already seen."
  | extendsLate => "'extends' clause must precede 'implements' clause."
  | implementsTwice => "'implements' clause already seen."
  | typeArgumentsEmpty => "Type argument list cannot be empty."
  | typeParametersEmpty => "Type parameter list cannot be empty."
  | indexSignatureType => "Index signature must have a type annotation"
  | accessorQuestion => "An 'accessor' property cannot be declared optional."
  | unsupportedFlow => "Flow is not supported"
  | tooDeep => "Maximum nesting depth exceeded"

end Splice
