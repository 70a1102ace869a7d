import Stencil.Template.Node

/-!
# Equality of templates

Two nodes are the same if they have the same class and the same parts. Attributes are compared as
maps, so their order does not matter, and expressions without regard to how their directives were
written.
-/

namespace Stencil

def Hook.same : Hook → Hook → Bool
  | .named ss, .named ts => ss == ts
  | .onElement n e, .onElement n' e' => n == n' && e.same e'
  | .onComponent n e, .onComponent n' e' => n == n' && e.same e'
  | _, _ => false

def Hook.sameAll : List Hook → List Hook → Bool
  | [], [] => true
  | h :: hs, h' :: hs' => h.same h' && sameAll hs hs'
  | _, _ => false

def Hook.sameAll? : Option (List Hook) → Option (List Hook) → Bool
  | none, none => true
  | some hs, some hs' => sameAll hs hs'
  | _, _ => false

namespace Node

mutual

def same : Node → Node → Bool
  | .text s, .text t => s == t
  | .value t, .value u => t.same u
  | .comment s, .comment t => s == t
  | .doctype n p s, .doctype n' p' s' => n == n' && p == p' && s == s'
  | .element t as c sc hs, .element t' as' c' sc' hs' =>
    t == t' && as.length == as'.length && sameAttributes as as' && sameContent c c' &&
      sc == sc' && Hook.sameAll? hs hs'
  | .conditional bs, .conditional bs' => sameBranches bs bs'
  | .each d c o, .each d' c' o' => d.same d' && sameNodes c c' && sameContent o o'
  | .block d c, .block d' c' => d.same d' && sameNodes c c'
  | .view n as hs, .view n' as' hs' =>
    n == n' && sameViewAttributes? as as' && Hook.sameAll? hs hs'
  | .dynamicView n as hs, .dynamicView n' as' hs' =>
    sameDynamic n n' && sameViewAttributes? as as' && Hook.sameAll? hs hs'
  | _, _ => false
termination_by structural n => n

def sameNodes : List Node → List Node → Bool
  | [], [] => true
  | n :: ns, n' :: ns' => same n n' && sameNodes ns ns'
  | _, _ => false
termination_by structural ns => ns

def sameContent : Option (List Node) → Option (List Node) → Bool
  | none, none => true
  | some ns, some ns' => sameNodes ns ns'
  | _, _ => false
termination_by structural ns => ns

def sameBranches : List (Directive × List Node) → List (Directive × List Node) → Bool
  | [], [] => true
  | (d, ns) :: bs, (d', ns') :: bs' => d.same d' && sameNodes ns ns' && sameBranches bs bs'
  | _, _ => false
termination_by structural bs => bs

def sameDynamic : Dynamic → Dynamic → Bool
  | .term t, .term u => t.same u
  | .nodes ns, .nodes ns' => sameNodes ns ns'
  | _, _ => false
termination_by structural d => d

def sameAttribute : Attribute → Attribute → Bool
  | .literal v, .literal w => v.same w
  | .dynamic d, .dynamic d' => sameDynamic d d'
  | _, _ => false
termination_by structural a => a

def sameAttributes : List (String × Attribute) → List (String × Attribute) → Bool
  | [], _ => true
  | (k, a) :: as, as' =>
    (match Entries.get? k as' with
      | some a' => sameAttribute a a'
      | none => false) && sameAttributes as as'
termination_by structural as => as

def sameViewAttribute : ViewAttribute → ViewAttribute → Bool
  | .literal v, .literal w => v.same w
  | .wrapped d, .wrapped d' => sameDynamic d d'
  | .array vs es, .array ws es' => Value.sameItems vs ws && sameEntries es es'
  | _, _ => false
termination_by structural a => a

def sameViewAttributes :
    List (String × ViewAttribute) → List (String × ViewAttribute) → Bool
  | [], _ => true
  | (k, a) :: as, as' =>
    (match Entries.get? k as' with
      | some a' => sameViewAttribute a a'
      | none => false) && sameViewAttributes as as'
termination_by structural as => as

def sameViewAttributes? :
    Option (List (String × ViewAttribute)) → Option (List (String × ViewAttribute)) → Bool
  | none, none => true
  | some as, some as' => as.length == as'.length && sameViewAttributes as as'
  | _, _ => false
termination_by structural as => as

def sameEntries :
    List (List (String × ViewAttribute)) → List (List (String × ViewAttribute)) → Bool
  | [], [] => true
  | as :: es, as' :: es' =>
    as.length == as'.length && sameViewAttributes as as' && sameEntries es es'
  | _, _ => false
termination_by structural es => es

end

end Node

def Template.same (t t' : Template) : Bool :=
  Node.sameNodes t.content t'.content

end Stencil
