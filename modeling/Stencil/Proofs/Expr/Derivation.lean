import Stencil.Expr.Grammar

/-!
# Derivations of expressions

The grammar of expressions as a relation between phrases and lexemes, apart from any way of
reading. A phrase is a nonterminal with the expression that it makes. Repetitions are phrases of
their own: `Phrase.joined` is the rest of a row of operators of one level, which makes an
expression out of the operand on its left, and `Phrase.extended` is the rest of a row of members,
brackets and calls.
-/

namespace Stencil.Expr

/-- A nonterminal of the grammar, with what it makes. -/
inductive Phrase where
  | sequence (e : Expr)
  /-- Conditionals, each after a comma. -/
  | listed (es : List Expr)
  | conditional (e : Expr)
  | binary (level : Nat) (e : Expr)
  /-- Operators of the level, each before an operand, after the operand `left`. -/
  | joined (level : Nat) (left e : Expr)
  | unary (e : Expr)
  /-- Members, brackets and calls after the expression `base`. -/
  | extended (base e : Expr)
  | primary (e : Expr)
  /-- Conditionals with commas between them, maybe one after the last, and then `closing`. -/
  | arguments (closing : Char) (es : List Expr)
  /-- Keys with values, separated like arguments, and then a closing brace. -/
  | members (ms : List (String × Expr))

/-- What a sign makes of a number. -/
inductive Signed : Operator → Value → Value → Prop
  | minusInt (n : Int) : Signed .sub (.int n) (.int (-n))
  | minusFloat (x : Binary64) : Signed .sub (.float x) (.float x.neg)
  | plusInt (n : Int) : Signed .add (.int n) (.int n)
  | plusFloat (x : Binary64) : Signed .add (.float x) (.float x)

/-- The members of an object whose values are all constants. -/
def constantMembers (fields : List (String × Value)) : List (String × Expr) :=
  fields.map fun field => (field.1, .literal field.2)

open Grammar (constant? key?)

/-- The lexemes that a phrase can be written with: sequences and choices, the levels of binary
operators, each from the left, unary operators, which are computed on a constant, members, brackets
and calls, primary expressions, of which arrays and objects of constants are constants, and lists up
to a closing mark, before which a comma may stand. -/
inductive Derives : Phrase → List Lexeme → Prop
  | single {e : Expr} {ls : List Lexeme} (he : Derives (.conditional e) ls) :
    Derives (.sequence e) ls
  | several {e e' : Expr} {es : List Expr} {ls more : List Lexeme}
    (he : Derives (.conditional e) ls) (hes : Derives (.listed (e' :: es)) more) :
    Derives (.sequence (.sequence (e :: e' :: es))) (ls ++ more)
  | listedNil : Derives (.listed []) []
  | listedCons {e : Expr} {es : List Expr} {ls more : List Lexeme}
    (he : Derives (.conditional e) ls) (hes : Derives (.listed es) more) :
    Derives (.listed (e :: es)) (.punctuation ',' :: (ls ++ more))
  | test {e : Expr} {ls : List Lexeme} (he : Derives (.binary 0 e) ls) :
    Derives (.conditional e) ls
  | choice {test yes no : Expr} {ls ys ns : List Lexeme} (ht : Derives (.binary 0 test) ls)
    (hy : Derives (.conditional yes) ys) (hn : Derives (.conditional no) ns) :
    Derives (.conditional (.choice test yes no))
      (ls ++ .punctuation '?' :: (ys ++ .punctuation ':' :: ns))
  | operands {level : Nat} {left e : Expr} {ls more : List Lexeme} (hlevel : level < 6)
    (hl : Derives (.binary (level + 1) left) ls) (hj : Derives (.joined level left e) more) :
    Derives (.binary level e) (ls ++ more)
  | operand {e : Expr} {ls : List Lexeme} (he : Derives (.unary e) ls) :
    Derives (.binary 6 e) ls
  | joinedNil {level : Nat} {left : Expr} : Derives (.joined level left left) []
  | joinedCons {level : Nat} {op : Operator} {left right e : Expr} {ls more : List Lexeme}
    (hop : op.level? = some level) (hr : Derives (.binary (level + 1) right) ls)
    (hj : Derives (.joined level (.binary op left right) e) more) :
    Derives (.joined level left e) (.operator op :: (ls ++ more))
  | negation {v : Value} {ls : List Lexeme} (hv : Derives (.unary (.literal v)) ls) :
    Derives (.unary (.literal (.bool !v.truthy))) (.operator .not :: ls)
  | sign {op : Operator} {v w : Value} {ls : List Lexeme} (hs : Signed op v w)
    (hv : Derives (.unary (.literal v)) ls) : Derives (.unary (.literal w)) (.operator op :: ls)
  | operation {op : Operator} {e : Expr} {ls : List Lexeme} (hop : op.isUnary = true)
    (hne : e.isLiteral = false) (he : Derives (.unary e) ls) :
    Derives (.unary (.unary op e)) (.operator op :: ls)
  | extension {base e : Expr} {ls more : List Lexeme} (hb : Derives (.primary base) ls)
    (he : Derives (.extended base e) more) : Derives (.unary e) (ls ++ more)
  | extendedNil {e : Expr} : Derives (.extended e e) []
  | member {base base' e : Expr} {name : String} {more : List Lexeme}
    (hm : base.member? name = some base') (he : Derives (.extended base' e) more) :
    Derives (.extended base e) (.punctuation '.' :: .name name :: more)
  | brackets {base inside e : Expr} {ls more : List Lexeme} (hb : base.isPlace = true)
    (hi : Derives (.sequence inside) ls)
    (he : Derives (.extended (.brackets base inside []) e) more) :
    Derives (.extended base e) (.punctuation '[' :: (ls ++ .punctuation ']' :: more))
  | call {f : List String} {args : List Expr} {e : Expr} {ls more : List Lexeme}
    (ha : Derives (.arguments ')' args) ls) (he : Derives (.extended (.call f args []) e) more) :
    Derives (.extended (.path f) e) (.punctuation '(' :: (ls ++ more))
  | int (n : Nat) : Derives (.primary (.literal (.int n))) [.int n]
  | float (x : Binary64) : Derives (.primary (.literal (.float x))) [.float x]
  | text (s : String) : Derives (.primary (.literal (.text s))) [.text s]
  | constant {word : String} {v : Value} (hv : constant? word = some v) :
    Derives (.primary (.literal v)) [.name word]
  | this : Derives (.primary (.relative [])) [.name "this"]
  | path {word : String} (hc : constant? word = none) (ht : word ≠ "this") :
    Derives (.primary (.path [word])) [.name word]
  | aliasPath (name : String) :
    Derives (.primary (.aliasPath ("#" ++ name) [])) [.aliasName name]
  | attributePath (name : String) :
    Derives (.primary (.attributePath name [])) [.attributeName name]
  | group {e : Expr} {ls : List Lexeme} (he : Derives (.sequence e) ls) :
    Derives (.primary e) (.punctuation '(' :: (ls ++ [.punctuation ')']))
  | constantArray {vs : List Value} {ls : List Lexeme}
    (hvs : Derives (.arguments ']' (vs.map .literal)) ls) :
    Derives (.primary (.literal (.list vs))) (.punctuation '[' :: ls)
  | array {es : List Expr} {ls : List Lexeme} (hne : ∃ e ∈ es, e.isLiteral = false)
    (hes : Derives (.arguments ']' es) ls) : Derives (.primary (.array es)) (.punctuation '[' :: ls)
  | constantObject {fields : List (String × Value)} {ls : List Lexeme}
    (hfs : Derives (.members (constantMembers fields)) ls) :
    Derives (.primary (.literal (.object (Entries.ofPairs fields)))) (.punctuation '{' :: ls)
  | object {ms : List (String × Expr)} {ls : List Lexeme}
    (hne : ∃ m ∈ ms, m.2.isLiteral = false) (hms : Derives (.members ms) ls) :
    Derives (.primary (.object ms)) (.punctuation '{' :: ls)
  | argumentsNil {closing : Char} : Derives (.arguments closing []) [.punctuation closing]
  | argumentsOne {closing : Char} {e : Expr} {ls : List Lexeme}
    (he : Derives (.conditional e) ls) :
    Derives (.arguments closing [e]) (ls ++ [.punctuation closing])
  | argumentsCons {closing : Char} {e : Expr} {es : List Expr} {ls more : List Lexeme}
    (he : Derives (.conditional e) ls) (hes : Derives (.arguments closing es) more) :
    Derives (.arguments closing (e :: es)) (ls ++ .punctuation ',' :: more)
  | membersNil : Derives (.members []) [.punctuation '}']
  | membersOne {l : Lexeme} {k : String} {e : Expr} {ls : List Lexeme} (hk : key? l = some k)
    (he : Derives (.conditional e) ls) :
    Derives (.members [(k, e)]) (l :: .punctuation ':' :: (ls ++ [.punctuation '}']))
  | membersCons {l : Lexeme} {k : String} {e : Expr} {ms : List (String × Expr)}
    {ls more : List Lexeme} (hk : key? l = some k) (he : Derives (.conditional e) ls)
    (hms : Derives (.members ms) more) :
    Derives (.members ((k, e) :: ms)) (l :: .punctuation ':' :: (ls ++ .punctuation ',' :: more))

end Stencil.Expr
