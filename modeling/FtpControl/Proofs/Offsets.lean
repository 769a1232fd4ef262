import FtpControl.Proofs.Columns
import FtpControl.Proofs.Spelling

namespace FtpControl

namespace Reply

namespace Offsets

def space : UInt8 := 32

end Offsets

namespace Offsets

end Offsets

end Reply

end FtpControl
