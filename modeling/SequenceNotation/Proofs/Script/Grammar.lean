import SequenceNotation.Script.Token
import SequenceNotation.Script.Tree

/-!
# The grammar of expressions

The layers of the language from loosest to tightest, and which tokens each of them derives with which tree.
Function literals are not part of it.  Parentheses leave no node, so what counts for the target of an
assignment and for `++` behind an expression is whether its tree is a name.
-/

namespace SequenceNotation.Script

inductive Layer where
  | assignment | conditional | nullish | or | and | equality | relational | additive | multiplicative
  | power | unary | suffix | primary
  deriving DecidableEq

namespace Layer

/-- The layer of the operands, or of what stands in for an expression of the layer. -/
def tighter? : Layer → Option Layer
  | assignment => some conditional
  | conditional => some nullish
  | nullish => some or
  | or => some and
  | and => some equality
  | equality => some relational
  | relational => some additive
  | additive => some multiplicative
  | multiplicative => some power
  | power => some unary
  | unary => some suffix
  | suffix => some primary
  | primary => none

/-- The node of a left-associative operator of the layer. -/
def join? : Layer → Mark → Option (Expression → Expression → Expression)
  | nullish, .nullish => some (.logical .nullish)
  | or, .or => some (.logical .or)
  | and, .and => some (.logical .and)
  | equality, .equal => some (.binary .equal)
  | equality, .notEqual => some (.binary .notEqual)
  | equality, .strictEqual => some (.binary .strictEqual)
  | equality, .strictNotEqual => some (.binary .strictNotEqual)
  | relational, .less => some (.binary .less)
  | relational, .lessEqual => some (.binary .lessEqual)
  | relational, .greater => some (.binary .greater)
  | relational, .greaterEqual => some (.binary .greaterEqual)
  | additive, .plus => some (.binary .add)
  | additive, .minus => some (.binary .subtract)
  | multiplicative, .star => some (.binary .multiply)
  | multiplicative, .slash => some (.binary .divide)
  | multiplicative, .percent => some (.binary .remainder)
  | _, _ => none

end Layer

/-- Marks of assignment, and the operator of a compound one. -/
inductive Assigns : Mark → Option BinaryOperator → Prop
  | plain : Assigns .assign none
  | add : Assigns .plusAssign (some .add)
  | subtract : Assigns .minusAssign (some .subtract)
  | multiply : Assigns .starAssign (some .multiply)
  | divide : Assigns .slashAssign (some .divide)

/-- Operators in front of their operand. -/
inductive Prefixes : Token → UnaryOperator → Prop
  | negate : Prefixes (.mark .minus) .negate
  | plus : Prefixes (.mark .plus) .plus
  | not : Prefixes (.mark .not) .not
  | typeof : Prefixes (.keyword .typeofWord) .typeof

/-- Marks that count up or down. -/
inductive Counts : Mark → Bool → Prop
  | up : Counts .increment true
  | down : Counts .decrement false

/-- Tokens that are expressions by themselves. -/
inductive Atom : Token → Expression → Prop
  | number (value : Number.Double) : Atom (.number value) (.number value)
  | text (text : String) : Atom (.string text) (.text text)
  | true : Atom (.keyword .trueWord) (.boolean true)
  | false : Atom (.keyword .falseWord) (.boolean false)
  | null : Atom (.keyword .nullWord) .null
  | undefined : Atom (.keyword .undefinedWord) .undefined
  | name (name : String) : Atom (.identifier name) (.name name)

/-- Token lists with a comma between each of them and the next. -/
def commaSeparated (lists : List (List Token)) : List Token :=
  List.intercalate [.mark .comma] lists

/-- The tokens derived at a layer, with their trees. -/
inductive Derives : Layer → List Token → Expression → Prop
  | tighter {layer inner tokens tree} (hlayer : layer.tighter? = some inner)
    (h : Derives inner tokens tree) : Derives layer tokens tree
  | assign {target value name mark operator tree} (hmark : Assigns mark operator)
    (htarget : Derives .conditional target (.name name)) (hvalue : Derives .assignment value tree) :
    Derives .assignment (target ++ .mark mark :: value) (.assign name operator tree)
  | conditional {test consequent alternative testTree consequentTree alternativeTree}
    (htest : Derives .nullish test testTree) (hconsequent : Derives .assignment consequent consequentTree)
    (halternative : Derives .assignment alternative alternativeTree) :
    Derives .conditional (test ++ .mark .question :: (consequent ++ .mark .colon :: alternative))
      (.conditional testTree consequentTree alternativeTree)
  | join {layer inner mark join left right leftTree rightTree} (hlayer : layer.tighter? = some inner)
    (hmark : layer.join? mark = some join) (hleft : Derives layer left leftTree)
    (hright : Derives inner right rightTree) :
    Derives layer (left ++ .mark mark :: right) (join leftTree rightTree)
  | power {base exponent baseTree exponentTree} (hbase : Derives .unary base baseTree)
    (hexponent : Derives .power exponent exponentTree) :
    Derives .power (base ++ .mark .power :: exponent) (.binary .power baseTree exponentTree)
  | prefixed {token operator operand tree} (htoken : Prefixes token operator)
    (hoperand : Derives .unary operand tree) :
    Derives .unary (token :: operand) (.unary operator tree)
  | countInFront {mark upwards} (hmark : Counts mark upwards) (name : String) :
    Derives .unary [.mark mark, .identifier name] (.update name upwards true)
  | countBehind {mark upwards tokens name} (hmark : Counts mark upwards)
    (h : Derives .suffix tokens (.name name)) :
    Derives .suffix (tokens ++ [.mark mark]) (.update name upwards false)
  | member {tokens tree} (h : Derives .suffix tokens tree) (name : String) :
    Derives .suffix (tokens ++ [.mark .dot, .identifier name]) (.member tree name)
  | call {callee tree} (hcallee : Derives .suffix callee tree)
    (arguments : List (List Token × Expression))
    (harguments : ∀ argument ∈ arguments, Derives .assignment argument.1 argument.2) :
    Derives .suffix
      (callee ++ .mark .openParen :: (commaSeparated (arguments.map Prod.fst) ++ [.mark .closeParen]))
      (.call tree (arguments.map Prod.snd))
  | atom {token tree} (h : Atom token tree) : Derives .primary [token] tree
  | parentheses {tokens tree} (h : Derives .assignment tokens tree) :
    Derives .primary (.mark .openParen :: (tokens ++ [.mark .closeParen])) tree

end SequenceNotation.Script
