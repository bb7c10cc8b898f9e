/-!
# ASCII spellings of letters

Names of generated items are plain ASCII, so every other character has a
spelling: the letters and digits that stand for it, an underscore where it only
separates what is beside it, and nothing where it is silent. Alphabets are
listed in code point order; ideographs and pictures are listed one by one, and
Hangul syllables are spelled from their three parts.
-/

namespace SchemaCompiler
namespace Text

/-- Spellings of consecutive characters, from the first code point on; a hyphen
marks a silent character. -/
def alphabetSpellings : List (Nat × String) := [
  (0x00A0, "_ _ c GBP _ JPY _ S _ C a _ _ - R _ _ _ 2 3 _ u P _ _ 1 o _ 1_4 1_2 3_4 _ A A A A A A Ae C E
    E E E I I I I D N O O O O O _ O U U U U Y Th ss a a a a a a ae c e e e e i i i i d n o o o o
    o _ o u u u u y th y A a A a A a C c C c C c C c D d D d E e E e E e E e E e G g G g G g G g
    H h H h I i I i I i I i I i IJ ij J j K k k L l L l L l L l L l N n N n N n _n Ng ng O o O o
    O o Oe oe R r R r R r S s S s S s S s T t T t T t U u U u U u U u U u U u W w Y y Y Z z Z z
    Z z s b B B b - - O C c D D D d d E E E F f G G hv I I K k l l M N n O O o Oi oi P p YR S s
    Sh sh t T t T U u U V Y y Z z Zh Zh zh zh 2 5 5 ts w"),
  (0x01C4, "DZ Dz dz LJ Lj lj NJ Nj nj A a I i O o U u U u U u U u U u e A a A a Ae ae G g G g K k O o O
    o Zh zh j DZ Dz dz G g Hv W N n A a Ae ae O o A a A a E e E e I i I i O o O o R r R r U u U
    u S s T t Y y H h N d Ou ou - - A a E e O o O o O o O o Y y l n t j db qp A C c L T s z _ _
    B U V E e J j Q q R r Y y a a a b o c d d e e - e e"),
  (0x0261, "g G gh o h h - i - I l l l lzh m - m n n N o OE ph - r r r r r r - R R s sh"),
  (0x0288, "t u u v v w y Y z z zh - _ _"),
  (0x02B0, "h h j r r r R w y - - _ _ _"),
  (0x02C6, "_ - _ - - - _ - - - _"),
  (0x02D8, "_ _ _ _ _ _ - - gh l s x _"),
  (0x037A, "_ - - - _"),
  (0x0384, "_ _ A _ E I I - O - Y O i A V G D E Z I Th I K L M N X O P R - S T Y F Ch Ps O I Y a e i i y
    a v g d e z i th i k l m n x o p r s s t y f ch ps o i y o y o - v th Y Y Y f p"),
  (0x03F0, "k r s - Th e - - - S"),
  (0x0400, "E E Dj G Ye Dz I Yi J Lj Nj C K I U Dz A B V G D E Zh Z I Y K L M N O P R S T U F Kh Ts Ch
    Sh Shch _ Y _ E Yu Ya a b v g d e zh z i y k l m n o p r s t u f kh ts ch sh shch _ y _ e yu
    ya e e dj g ye dz i yi j lj nj c k i u dz - - E e"),
  (0x0472, "F f I i I i"),
  (0x0490, "G g Gh gh - - Zh zh - - Q q"),
  (0x04A2, "Ng ng"),
  (0x04AE, "U u U u H h - - Ch ch - - H h"),
  (0x04C1, "Zh zh"),
  (0x04D0, "A a A a - - E e A a A a Zh zh Z z - - I i I i O o O o O o E e U u U u U u Ch ch - - Y y"),
  (0x0531, "A B G D E Z E Y T_ Zh I L Kh Ts K H Dz Gh Ch M Y N Sh O Ch_ P J R S V T R Ts_ W P_ K_ O F"),
  (0x0561, "a b g d e z e y t_ zh i l kh ts k h dz gh ch m y n sh o ch_ p j r s v t r ts_ w p_ k_ o f ev"),
  (0x05BE, "_ - _ - - _ - - _"),
  (0x05D0, "_ v g d h v z h t y k k l m m n n s _ f f ts ts k r s t"),
  (0x05F3, "_ _"),
  (0x060C, "_"),
  (0x061B, "_ - - - _ - _ a _ w _ y - b h t th j h kh d dh r z s sh s d t z _ gh"),
  (0x0641, "f q k l m n h w a y"),
  (0x0660, "0 1 2 3 4 5 6 7 8 9 _ _ _ _"),
  (0x067E, "p"),
  (0x0686, "ch"),
  (0x0698, "zh"),
  (0x06A9, "k"),
  (0x06AF, "g"),
  (0x06BA, "n"),
  (0x06C1, "h h"),
  (0x06CC, "y"),
  (0x06D2, "e e"),
  (0x06F0, "0 1 2 3 4 5 6 7 8 9"),
  (0x0901, "m m h a a a i i u u r l e e e ai o o o au k kh g gh ng c ch j jh n t th d dh n t th d dh n n
    p ph b bh m y r r l l l v s s s h"),
  (0x093E, "a i i u u r r e e e ai o o o au"),
  (0x0958, "k kh g j d dh ph y"),
  (0x0964, "_ _ 0 1 2 3 4 5 6 7 8 9"),
  (0x0E01, "k kh kh kh kh kh ng ch ch ch s ch y d t th th th n d t th th th n b p ph f ph f ph m y r rue
    l lue w s s s h l _ h - a a a am i i ue ue u u"),
  (0x0E3F, "THB e ae o ai ai - _"),
  (0x0E50, "0 1 2 3 4 5 6 7 8 9"),
  (0x10D0, "a b g d e v z t i k_ l m n o p_ zh r s t_ u p k gh q_ sh ch ts dz ts_ ch_ kh j h"),
  (0x10FC, "n"),
  (0x1D2C, "A Ae B - D E E G H I J K L M N - O Ou P R T U W a a a - b d e e e e g - k m ng o o - - p t u
    - m v - v g d f ch i r u v v g r f ch"),
  (0x1D78, "n"),
  (0x1D9B, "a c c d e f - g h i - I - - l - - m - n n N o - s sh t u u - v v z z z zh th"),
  (0x1E00, "A a B b B b B b C c D d D d D d D d D d E e E e E e E e E e F f G g H h H h H h H h H h I i
    I i K k K k K k L l L l L l L l M m M m M m N n N n N n N n O o O o O o O o P p P p R r R r
    R r R r S s S s S s S s S s T t T t T t T t U u U u U u U u U u V v V v W w W w W w W w W w
    X x X x Y y Z z Z z Z z h t w y - s - - Ss - A a A a A a A a A a A a A a A a A a A a A a A a
    E e E e E e E e E e E e E e E e I i I i O o O o O o O o O o O o O o O o O o O o O o O o U u
    U u U u U u U u U u U u Y y Y y Y y Y y"),
  (0x1F00, "a a a a a a a a A A A A A A A A e e e e e e - - E E E E E E - - i i i i i i i i I I I I I I
    I I i i i i i i i i I I I I I I I I o o o o o o - - O O O O O O - - y y y y y y y y - Y - Y
    - Y - Y o o o o o o o o O O O O O O O O a a e e i i i i o o y y o o - - a a a a a a a a A A
    A A A A A A i i i i i i i i I I I I I I I I o o o o o o o o O O O O O O O O a a a a a - a a
    A A A A A _ i _ _ _ i i i - i i E E I I I _ _ _ i i i i - - i i I I I I - _ _ _ y y y y r r
    y y Y Y Y Y R _ _ _ - - o o o - o o O O O O O _ _"),
  (0x2000, "_ _ _ _ _ _ _ _ _ _ _"),
  (0x2010, "_ _ _ _ _ _ _ _ _ _ _ _ _ _ _ _ _ _ _ _ _ _ _ _ _ _"),
  (0x202F, "_ _ _ _ _ _ _ _ _ _ _ _ _ _ _ _ _ _ _ _ _ _ _ _ _ _ _ _ _ _ _ _ _ _ _ _ _ _ _ _ _ _ _ _ _ _
    _ _ _"),
  (0x2070, "0 i - - 4 5 6 7 8 9 _ _ _ _ _ n 0 1 2 3 4 5 6 7 8 9 _ _ _ _ _ - a e o x e h k l m n p s t -
    - - CE CRC BRB FRF GBP _ NGN ESP PKR KRW ILS VND EUR LAK MNT GRD _ PHP PYG ARA UAH GHS _ _
    KZT INR TRY _ AZN RUB GEL BTC"),
  (0x2100, "a_c a_s C C - c_o c_u E - F g H H H h h I I L l - N No P - P Q R R R Rx - SM TEL TM - Z - O
    - Z - K A B C e e E F - M o _ v g d i - FAX p g G P _"),
  (0x2145, "D d e i j - _"),
  (0x2150, "1_7 1_9 1_10 1_3 2_3 1_5 2_5 3_5 4_5 1_6 5_6 1_8 3_8 5_8 7_8 1_ I II III IV V VI VII VIII IX
    X XI XII L C D M i ii iii iv v vi vii viii ix x xi xii l c d m"),
  (0x2189, "0_3"),
  (0x2460, "1 2 3 4 5 6 7 8 9 10 11 12 13 14 15 16 17 18 19 20 _1_ _2_ _3_ _4_ _5_ _6_ _7_ _8_ _9_ _10_
    _11_ _12_ _13_ _14_ _15_ _16_ _17_ _18_ _19_ _20_ 1_ 2_ 3_ 4_ 5_ 6_ 7_ 8_ 9_ 10_ 11_ 12_ 13_
    14_ 15_ 16_ 17_ 18_ 19_ 20_ _a_ _b_ _c_ _d_ _e_ _f_ _g_ _h_ _i_ _j_ _k_ _l_ _m_ _n_ _o_ _p_
    _q_ _r_ _s_ _t_ _u_ _v_ _w_ _x_ _y_ _z_ A B C D E F G H I J K L M N O P Q R S T U V W X Y Z
    a b c d e f g h i j k l m n o p q r s t u v w x y z 0"),
  (0x3000, "_ _ _ _ - _ _ 0"),
  (0x300C, "_ _ _ _ _ _ _"),
  (0x301C, "_"),
  (0x3036, "_ - Shi"),
  (0x3041, "a a i i u u e e o o ka ga ki gi ku gu ke ge ko go sa za shi ji su zu se ze so zo ta da chi
    ji tsu tsu zu te de to do na ni nu ne no ha ba pa hi bi pi fu bu pu he be pe ho bo po ma mi
    mu me mo ya ya yu yu yo yo ra ri ru re ro wa wa wi we wo n vu"),
  (0x309B, "_ _ _ _ yori _ a a i i u u e e o o ka ga ki gi ku gu ke ge ko go sa za shi ji su zu se ze so
    zo ta da chi ji tsu tsu zu te de to do na ni nu ne no ha ba pa hi bi pi fu bu pu he be pe ho
    bo po ma mi mu me mo ya ya yu yu yo yo ra ri ru re ro wa wa wi we wo n vu - - wa wi we wo _
    - _ _ koto"),
  (0xFB00, "ff fi fl ffi ffl st st"),
  (0xFF01, "_ _ _ _ _ _ _ _ _ _ _ _ _ _ _ 0 1 2 3 4 5 6 7 8 9 _ _ _ _ _ _ _ A B C D E F G H I J K L M N
    O P Q R S T U V W X Y Z _ _ _ _ _ _ a b c d e f g h i j k l m n o p q r s t u v w x y z _ _
    _ _ - - _ _ _ _ _ wo a i u e o ya yu yo tsu - a i u e o ka ki ku ke ko sa shi su se so ta
    chi tsu te to na ni nu ne no ha hi fu he ho ma mi mu me mo ya yu yo ra ri ru re ro wa n"),
  (0xFFE0, "c GBP _ _ _ JPY KRW"),
  (0x1D400, "A B C D E F G H I J K L M N O P Q R S T U V W X Y Z a b c d e f g h i j k l m n o p q r s t
    u v w x y z A B C D E F G H I J K L M N O P Q R S T U V W X Y Z a b c d e f g - i j k l m n
    o p q r s t u v w x y z A B C D E F G H I J K L M N O P Q R S T U V W X Y Z a b c d e f g h
    i j k l m n o p q r s t u v w x y z A - C D - - G - - J K - - N O P Q - S T U V W X Y Z a b
    c d - f - h i j k l m n - p q r s t u v w x y z A B C D E F G H I J K L M N O P Q R S T U V
    W X Y Z a b c d e f g h i j k l m n o p q r s t u v w x y z A B - D E F G - - J K L M N O P
    Q - S T U V W X Y - a b c d e f g h i j k l m n o p q r s t u v w x y z A B - D E F G - I J
    K L M - O - - - S T U V W X Y - a b c d e f g h i j k l m n o p q r s t u v w x y z A B C D
    E F G H I J K L M N O P Q R S T U V W X Y Z a b c d e f g h i j k l m n o p q r s t u v w x
    y z A B C D E F G H I J K L M N O P Q R S T U V W X Y Z a b c d e f g h i j k l m n o p q r
    s t u v w x y z A B C D E F G H I J K L M N O P Q R S T U V W X Y Z a b c d e f g h i j k l
    m n o p q r s t u v w x y z A B C D E F G H I J K L M N O P Q R S T U V W X Y Z a b c d e f
    g h i j k l m n o p q r s t u v w x y z A B C D E F G H I J K L M N O P Q R S T U V W X Y Z
    a b c d e f g h i j k l m n o p q r s t u v w x y z A B C D E F G H I J K L M N O P Q R S T
    U V W X Y Z a b c d e f g h i j k l m n o p q r s t u v w x y z i j - - A V G D E Z I Th I K
    L M N X O P R Th S T Y F Ch Ps O _ a v g d e z i th i k l m n x o p r s s t y f ch ps o _ e
    th k f r p A V G D E Z I Th I K L M N X O P R Th S T Y F Ch Ps O _ a v g d e z i th i k l m
    n x o p r s s t y f ch ps o _ e th k f r p A V G D E Z I Th I K L M N X O P R Th S T Y F Ch
    Ps O _ a v g d e z i th i k l m n x o p r s s t y f ch ps o _ e th k f r p A V G D E Z I Th
    I K L M N X O P R Th S T Y F Ch Ps O _ a v g d e z i th i k l m n x o p r s s t y f ch ps o
    _ e th k f r p A V G D E Z I Th I K L M N X O P R Th S T Y F Ch Ps O _ a v g d e z i th i k
    l m n x o p r s s t y f ch ps o _ e th k f r p"),
  (0x1D7CE, "0 1 2 3 4 5 6 7 8 9 0 1 2 3 4 5 6 7 8 9 0 1 2 3 4 5 6 7 8 9 0 1 2 3 4 5 6 7 8 9 0 1 2 3 4 5
    6 7 8 9")]

/-- Code points of the scripts of India that are laid out, block by block, like the
Devanagari block at the front of the range. -/
def indicRange : Nat × Nat := (0x0900, 0x0D7F)

/-- Number of code points in the block of one script of India. -/
def indicBlock : Nat := 0x80

/-- Ideographs, each followed by its reading. -/
def ideographSpellings : String :=
  "一Yi 七Qi 三San 上Shang 下Xia 不Bu 与Yu 世Shi 业Ye 东Dong 两Liang 中Zhong 丽Li 为Wei
    主Zhu 久Jiu 之Zhi 九Jiu 也Ye 书Shu 了Le 事Shi 二Er 于Yu 云Yun 五Wu 井Jing 些Xie 亚Ya
    交Jiao 京Jing 人Ren 什Shen 今Jin 从Cong 他Ta 付Fu 代Dai 令Ling 以Yi 们Men 件Jian 价Jia
    任Ren 份Fen 企Qi 会Hui 伟Wei 传Chuan 但Dan 位Wei 低Di 住Zhu 体Ti 何He 作Zuo 你Ni 使Shi
    來Lai 例Li 供Gong 依Yi 便Bian 保Bao 信Xin 修Xiu 個Ge 值Zhi 做Zuo 停Ting 偏Pian 備Bei
    元Yuan 先Xian 光Guang 克Ke 入Ru 全Quan 八Ba 公Gong 六Liu 共Gong 关Guan 兴Xing 其Qi 具Ju
    内Nei 册Ce 再Zai 写Xie 农Nong 冷Leng 准Zhun 几Ji 出Chu 分Fen 切Qie 列Lie 则Ze 创Chuang
    初Chu 删Shan 利Li 别Bie 到Dao 制Zhi 前Qian 力Li 加Jia 动Dong 化Hua 北Bei 区Qu 医Yi 十Shi
    千Qian 华Hua 单Dan 南Nan 博Bo 卡Ka 历Li 原Yuan 去Qu 参Can 又You 友You 双Shuang 反Fan 发Fa
    取Qu 口Kou 只Zhi 可Ke 台Tai 史Shi 右You 号Hao 司Si 合He 同Tong 名Ming 后Hou 向Xiang 否Fou
    听Ting 启Qi 吴Wu 告Gao 员Yuan 周Zhou 和He 品Pin 哈Ha 商Shang 問Wen 喜Xi 器Qi 四Si 回Hui
    因Yin 团Tuan 国Guo 图Tu 圆Yuan 土Tu 在Zai 地Di 场Chang 址Zhi 城Cheng 域Yu 基Ji 堂Tang
    報Bao 場Chang 增Zeng 士Shi 声Sheng 复Fu 外Wai 多Duo 大Da 天Tian 太Tai 头Tou 奇Qi 女Nu
    好Hao 如Ru 始Shi 姓Xing 子Zi 字Zi 存Cun 学Xue 學Xue 它Ta 安An 完Wan 宏Hong 定Ding 实Shi
    客Ke 家Jia 容Rong 密Mi 对Dui 导Dao 将Jiang 小Xiao 少Shao 就Jiu 尾Wei 局Ju 层Ceng 屏Ping
    属Shu 山Shan 岛Dao 工Gong 左Zuo 己Ji 已Yi 市Shi 布Bu 帐Zhang 带Dai 常Chang 平Ping 年Nian
    并Bing 广Guang 庆Qing 序Xu 库Ku 应Ying 店Dian 度Du 建Jian 开Kai 异Yi 式Shi 引Yin 张Zhang
    弟Di 強Qiang 强Qiang 当Dang 录Lu 形Xing 影Ying 往Wang 待Dai 後Hou 得De 微Wei 德De 心Xin
    必Bi 志Zhi 快Kuai 态Tai 性Xing 总Zong 您Nin 情Qing 想Xiang 意Yi 感Gan 愛Ai 慢Man 成Cheng
    我Wo 或Huo 户Hu 所Suo 手Shou 打Da 执Zhi 扫Sao 找Zhao 技Ji 把Ba 报Bao 拉La 拼Pin 持Chi
    指Zhi 按An 据Ju 排Pai 接Jie 控Kong 推Tui 提Ti 插Cha 描Miao 摄She 操Cao 支Zhi 收Shou 改Gai
    放Fang 政Zheng 效Xiao 数Shu 整Zheng 文Wen 斗Dou 料Liao 新Xin 方Fang 无Wu 日Ri 旧Jiu 时Shi
    明Ming 易Yi 星Xing 是Shi 時Shi 普Pu 景Jing 智Zhi 更Geng 書Shu 最Zui 月Yue 有You 服Fu
    望Wang 木Mu 未Wei 末Mo 本Ben 机Ji 权Quan 李Li 条Tiao 来Lai 東Dong 板Ban 林Lin 果Guo 某Mou
    查Cha 标Biao 校Xiao 样Yang 核He 根Gen 格Ge 检Jian 森Sen 模Mo 機Ji 欢Huan 次Ci 正Zheng 此Ci
    武Wu 每Mei 比Bi 民Min 气Qi 水Shui 永Yong 求Qiu 江Jiang 汉Han 池Chi 没Mei 河He 油You 治Zhi
    法Fa 注Zhu 活Huo 流Liu 测Ce 海Hai 消Xiao 深Shen 混Hun 清Qing 温Wen 港Gang 游You 湖Hu
    源Yuan 漢Han 火Huo 灯Deng 点Dian 無Wu 然Ran 照Zhao 片Pian 版Ban 牌Pai 物Wu 特Te 状Zhuang
    率Lu 王Wang 环Huan 现Xian 理Li 生Sheng 用Yong 田Tian 由You 电Dian 電Dian 男Nan 画Hua 界Jie
    略Lue 番Fan 登Deng 白Bai 的De 目Mu 直Zhi 相Xiang 省Sheng 真Zhen 着Zhe 知Zhi 短Duan 石Shi
    码Ma 确Que 示Shi 社She 神Shen 票Piao 福Fu 离Li 私Si 秋Qiu 种Zhong 科Ke 秘Mi 移Yi 程Cheng
    税Shui 空Kong 立Li 站Zhan 章Zhang 端Duan 第Di 筆Bi 等Deng 答Da 签Qian 简Jian 算Suan 管Guan
    箱Xiang 类Lei 粉Fen 米Mi 系Xi 級Ji 线Xian 组Zu 细Xi 经Jing 结Jie 给Gei 统Tong 继Ji 绿Lu
    编Bian 网Wang 置Zhi 美Mei 老Lao 者Zhe 而Er 联Lian 肉Rou 背Bei 能Neng 自Zi 至Zhi 色Se 节Jie
    花Hua 英Ying 苹Ping 范Fan 茶Cha 草Cao 药Yao 菜Cai 虎Hu 行Xing 街Jie 表Biao 被Bei 装Zhuang
    西Xi 要Yao 見Jian 视Shi 观Guan 角Jiao 解Jie 言Yan 計Ji 設She 試Shi 話Hua 語Yu 説Shuo
    調Diao 警Jing 计Ji 订Ding 认Ren 让Rang 记Ji 设She 证Zheng 试Shi 话Hua 询Xun 该Gai 详Xiang
    语Yu 误Wu 说Shuo 请Qing 读Du 调Diao 谢Xie 象Xiang 责Ze 账Zhang 货Huo 质Zhi 购Gou 费Fei
    资Zi 赤Chi 走Zou 起Qi 超Chao 足Zu 路Lu 身Shen 車Che 转Zhuan 软Ruan 载Zai 输Shu 辺Bian
    边Bian 达Da 过Guo 运Yun 近Jin 返Fan 还Huan 这Zhe 进Jin 连Lian 迟Chi 述Shu 送Song 适Shi
    选Xuan 透Tou 通Tong 速Su 造Zao 道Dao 部Bu 都Dou 配Pei 酒Jiu 重Zhong 量Liang 金Jin 错Cuo
    键Jian 長Chang 长Chang 門Men 開Kai 間Jian 门Men 问Wen 间Jian 阳Yang 队Dui 防Fang 阿A 附Fu
    限Xian 院Yuan 除Chu 随Sui 隐Yin 集Ji 雨Yu 雪Xue 零Ling 雷Lei 需Xu 青Qing 非Fei 面Mian
    音Yin 页Ye 项Xiang 顺Shun 须Xu 预Yu 题Ti 风Feng 飞Fei 食Shi 首Shou 香Xiang 馬Ma 駅Yi 验Yan
    高Gao 魚Yu 鱼Yu 鳥Niao 鸟Niao 麦Mai 黃Huang 黄Huang 黑Hei 默Mo 點Dian 龍Long 龙Long 埗Bu
    圳Zhen 屋Wu 亮Liang 宋Song 宇Yu 岡Gang 川Chuan 崎Qi 沢Ze 浜Bang 県Xian 駐Zhu 鉄Tie 円Yuan
    価Jia 気Qi 応Ying 広Guang 図Tu"

/-- Pictures, each followed by its short name. -/
def pictureSpellings : String :=
  "👍thumbsup 👎thumbsdown 🚀rocket 👧girl 👨man 👩woman 👦boy 👶baby 😀grinning 😁grin
    😂joy 🤣rofl 😃smiley 😄smile 😅sweat_smile 😆laughing 😉wink 😊blush 😋yum 😎sunglasses
    😍heart_eyes 😘kissing_heart 🙂slight_smile 🙃upside_down 🤔thinking 😐neutral_face
    😑expressionless 😏smirk 😢cry 😭sob 😡rage 😠angry 😱scream 😴sleeping 🤖robot 👻ghost
    💀skull 💩poop 🎉tada 🎊confetti_ball 🔥fire ✨sparkles ⭐star 🌟star2 ⚡zap 💥boom 💯100
    ❤heart 💔broken_heart 💙blue_heart 💚green_heart 💛yellow_heart 💜purple_heart
    🖤black_heart 👀eyes 👋wave 👏clap 🙏pray 💪muscle 👌ok_hand ✌v ✋raised_hand
    👉point_right 👈point_left 👆point_up_2 👇point_down 🐛bug 🐍snake 🦀crab 🐧penguin
    🐳whale 🐱cat 🐶dog 🐭mouse 🦊fox 🐻bear 🐼panda_face 🦄unicorn 🌍earth_africa
    🌎earth_americas 🌏earth_asia 🌈rainbow ☀sunny ☁cloud ☔umbrella ❄snowflake
    🌙crescent_moon 🌴palm_tree 👑crown 🍕pizza 🍔hamburger 🍎apple 🍺beer ☕coffee 🎂cake
    🎁gift 🎄christmas_tree 🎈balloon 🏠house 🚗red_car 🚒fire_engine ✈airplane 🚲bike 🚢ship
    ⏰alarm_clock ⌚watch 📱mobile_phone 💻computer 🖥desktop 📷camera 📞telephone_receiver
    📧e_mail ✉envelope 📦package 📁file_folder 📂open_file_folder 📄page_facing_up
    📊bar_chart 📈chart_with_upwards_trend 📉chart_with_downwards_trend 📝pencil 📌pushpin
    📍round_pushpin 🔒lock 🔓unlock 🔑key 🔧wrench 🔨hammer 🔗link 🔍mag 🔎mag_right 💡bulb
    🔔bell 🔋battery 🔌electric_plug ⚙gear 🛠tools ♻recycle ✅white_check_mark ❌x
    ❓question ❗exclamation ⚠warning 🚫no_entry_sign ⛔no_entry 🆕new 🆗ok 🔴red_circle
    🔵blue_circle 🏁checkered_flag 🚩triangular_flag_on_post 🎯dart 🎮video_game
    🎵musical_note 🎶notes 🏆trophy 🥇first_place ⚽soccer 🏀basketball 💰moneybag 💵dollar
    💎gem 🌸cherry_blossom 🌹rose 🌻sunflower 🌱seedling 🍀four_leaf_clover 🧪test_tube
    🧠brain 🤝handshake 🤷person_shrugging 🙈see_no_evil 🙉hear_no_evil 🙊speak_no_evil
    🥳partying_face 🥰smiling_face_with_3_hearts 🤗hugging 🙄rolling_eyes 😬grimacing
    😇innocent 🤯exploding_head 🧑adult 👪family 🏻tone1 🏼tone2 🏽tone3 🏾tone4 🏿tone5"

/-- Code points of arrows, operators and drawing signs, which only separate. -/
def separatorRanges : List (Nat × Nat) := [(0x2190, 0x245F), (0x2500, 0x27BF)]

/-- Spellings of the leading consonants of a Hangul syllable. -/
def hangulLeading : List String :=
  ["g", "kk", "n", "d", "tt", "r", "m", "b", "pp", "s", "ss", "", "j", "jj", "ch", "k", "t", "p",
    "h"]

/-- Spellings of the vowels of a Hangul syllable. -/
def hangulVowels : List String :=
  ["a", "ae", "ya", "yae", "eo", "e", "yeo", "ye", "o", "wa", "wae", "oe", "yo", "u", "wo", "we",
    "wi", "yu", "eu", "ui", "i"]

/-- Spellings of the closing consonants of a Hangul syllable. -/
def hangulClosing : List String :=
  ["", "g", "kk", "gs", "n", "nj", "nh", "d", "l", "lg", "lm", "lb", "ls", "lt", "lp", "lh", "m",
    "b", "bs", "s", "ss", "ng", "j", "ch", "k", "t", "p", "h"]

end Text
end SchemaCompiler
