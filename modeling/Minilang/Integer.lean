namespace Minilang.Integer

-- Division goes toward zero and the remainder takes the sign of the dividend.

def quotient? (a b : Int) : Option Int := if b = 0 then none else some (a.tdiv b)

def remainder? (a b : Int) : Option Int := if b = 0 then none else some (a.tmod b)

def truthy (a : Int) : Bool := a != 0

end Minilang.Integer
